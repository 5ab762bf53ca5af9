import Dashboard.Proofs.Markup.Places
import Dashboard.Proofs.Markup.Scanning
import Dashboard.Proofs.Script.Texts

/-!
What a run of the parser of documents depends on. A run that takes `m` characters and leaves the script
region alone depends on these and the next few: from any text that begins alike, wherever it stands,
as many are taken, and the results differ in their places only.
-/
namespace Dashboard.Markup

variable {m n : Nat}

namespace Source

/-- The state after so many characters. -/
def after (s : Source) (m : Nat) : Source := { s with cursor := s.cursor.skip m }

@[simp] theorem after_zero (s : Source) : s.after 0 = s := rfl

@[simp] theorem after_rest (s : Source) (m : Nat) :
    (s.after m).cursor.rest = s.cursor.rest.drop m := rfl

theorem after_add (s : Source) (m n : Nat) : s.after (m + n) = (s.after m).after n := by
  simp only [after, Cursor.skip_add]

theorem after_of_length {s : Source} (h : s.cursor.rest.length ≤ m)
    (h' : s.cursor.rest.length ≤ n) : s.after m = s.after n := by
  simp only [after, Cursor.skip, List.drop_of_length_le h, List.drop_of_length_le h',
    List.take_of_length_le h, List.take_of_length_le h']

/-- How much was taken can be told from the states, up to the end of the text. -/
theorem eq_of_after_eq {s : Source} (h : s.after m = s.after n) :
    m = n ∨ (s.cursor.rest.length ≤ m ∧ s.cursor.rest.length ≤ n) := by
  have lengths := congrArg (fun u => u.cursor.rest.length) h
  simp only [after_rest, List.length_drop] at lengths
  omega

end Source

namespace Parser

variable {α β γ δ : Type} {l : Lookahead} {least : Nat} {R : α → β → Prop} {S : γ → δ → Prop}

/-- The run from `s` to `s'` takes `least` characters or more and leaves the script region alone, and
the other parser follows it from any text that begins alike. -/
def Followed (l : Lookahead) (least : Nat) (R : α → β → Prop) (q : Parser β) (s : Source) (v : α)
    (s' : Source) : Prop :=
  ∃ k, least ≤ k ∧ s' = s.after k ∧ ∀ t : Source,
    Alike (k + l.reach (s.cursor.rest.drop k)) s.cursor.rest t.cursor.rest →
      ∃ w, q t = .ok (w, t.after k) ∧ R v w

/-- Every run that succeeds is followed. -/
def Follows (l : Lookahead) (least : Nat) (R : α → β → Prop) (p : Parser α) (q : Parser β) : Prop :=
  ∀ s v s', p s = .ok (v, s') → Followed l least R q s v s'

theorem Followed.bind {q : Parser β} {g : β → Parser δ} {s s1 s' : Source} {v : α} {u : γ}
    (h : Followed l m R q s v s1) (next : ∀ w, R v w → Followed l n S (g w) s1 u s') :
    Followed l (m + n) S (q >>= g) s u s' := by
  obtain ⟨j, many, rfl, first⟩ := h
  obtain ⟨w₀, -, related⟩ := first s (.refl _ _)
  obtain ⟨k, more, rfl, -⟩ := next w₀ related
  refine ⟨j + k, by omega, (s.after_add j k).symm, fun t alike => ?_⟩
  have seen := l.tame (s.cursor.rest.drop j) k
  rw [List.drop_drop] at seen
  obtain ⟨w, left, related⟩ := first t (alike.mono (by omega))
  obtain ⟨k', -, same, second⟩ := next w related
  rw [Nat.add_assoc, ← List.drop_drop] at alike
  have behind : Alike (k + l.reach ((s.cursor.rest.drop j).drop k)) (s.cursor.rest.drop j)
      (t.cursor.rest.drop j) := alike.drop
  -- The second run may count past the end of the text; what is seen of the end settles it.
  rcases Source.eq_of_after_eq same with rfl | ⟨spent, spent'⟩
  · obtain ⟨u', right, result⟩ := second (t.after j) behind
    exact ⟨u', run_bind_eq_ok.mpr ⟨w, _, left, by rw [right, t.after_add]⟩, result⟩
  · have sees := l.sees ((s.cursor.rest.drop j).drop k)
    rw [Source.after_rest] at spent spent'
    have whole := behind.eq_of_length (by omega)
    obtain ⟨u', right, result⟩ := second (t.after j) (by
      rw [Source.after_rest, Source.after_rest, whole]
      exact .refl _ _)
    have ended : (t.after j).after k' = (t.after j).after k :=
      Source.after_of_length (by rw [Source.after_rest, whole]; exact spent')
        (by rw [Source.after_rest, whole]; exact spent)
    exact ⟨u', run_bind_eq_ok.mpr ⟨w, _, left, by rw [right, ended, t.after_add]⟩, result⟩

theorem Followed.mono {q : Parser β} {s s' : Source} {v : α} (h : Followed l n R q s v s')
    (fewer : m ≤ n) : Followed l m R q s v s' := by
  obtain ⟨k, more, rest⟩ := h
  exact ⟨k, Nat.le_trans fewer more, rest⟩

theorem Follows.mono {p : Parser α} {q : Parser β} (h : Follows l n R p q) (fewer : m ≤ n) :
    Follows l m R p q :=
  fun s v s' ran => (h s v s' ran).mono fewer

theorem Follows.wide {p : Parser α} {q : Parser β} (h : Follows .tag n R p q) :
    Follows .wide n R p q := by
  intro s v s' ran
  obtain ⟨k, more, same, rest⟩ := h s v s' ran
  have further := Lookahead.reach_tag_le (s.cursor.rest.drop k)
  exact ⟨k, more, same, fun t alike => rest t (alike.mono (by omega))⟩

theorem Follows.bind {p : Parser α} {q : Parser β} {f : α → Parser γ} {g : β → Parser δ}
    (h : Follows l m R p q) (next : ∀ v w, R v w → Follows l n S (f v) (g w)) :
    Follows l (m + n) S (p >>= f) (q >>= g) := by
  intro s u s' ran
  obtain ⟨v, s1, first, second⟩ := run_bind_eq_ok.mp ran
  exact (h s v s1 first).bind fun w related => next v w related s1 u s' second

/-- The same where it does not matter how much is taken. -/
theorem Follows.andThen {p : Parser α} {q : Parser β} {f : α → Parser γ} {g : β → Parser δ}
    (h : Follows l m R p q) (next : ∀ v w, R v w → Follows l 0 S (f v) (g w)) :
    Follows l 0 S (p >>= f) (q >>= g) :=
  (h.bind next).mono (Nat.zero_le _)

/-- The same where the first result is the same in both. -/
theorem Follows.same {p q : Parser α} {f : α → Parser γ} {g : α → Parser δ}
    (h : Follows l m Eq p q) (next : ∀ v, Follows l 0 S (f v) (g v)) :
    Follows l 0 S (p >>= f) (q >>= g) :=
  h.andThen fun v _ same => same ▸ next v

theorem Follows.pure {v : α} {w : β} (h : R v w) : Follows l 0 R (Pure.pure v) (Pure.pure w) := by
  intro s u s' ran
  cases ran
  exact ⟨0, Nat.le_refl 0, rfl, fun t _ => ⟨w, rfl, h⟩⟩

theorem Follows.map {p : Parser α} {q : Parser β} {f : α → γ} {g : β → δ} (h : Follows l n R p q)
    (related : ∀ v w, R v w → S (f v) (g w)) :
    Follows l n S (do return f (← p)) (do return g (← q)) :=
  h.bind fun v w same => .pure (related v w same)

theorem Follows.failAt (fault : ParseFault) (position : Position) (q : Parser β) :
    Follows l n R (Parser.failAt fault position) q := by
  intro s v s' ran
  cases ran

theorem Follows.fail (fault : ParseFault) (q : Parser β) : Follows l n R (Parser.fail fault) q := by
  intro s v s' ran
  cases ran

theorem follows_here : Follows l 0 (fun _ _ => True) here here := by
  intro s v s' ran
  cases ran
  exact ⟨0, Nat.le_refl 0, rfl, fun t _ => ⟨_, rfl, trivial⟩⟩

theorem follows_skip (n : Nat) : Follows l n Eq (skip n) (skip n) := by
  intro s v s' ran
  cases ran
  exact ⟨n, Nat.le_refl n, rfl, fun t _ => ⟨_, rfl, rfl⟩⟩

/-- Parsers that look at the text ahead: what is done next may depend on as much of the text as is
taken then, and on what may be looked at behind. -/
theorem Follows.rest {f : List Char → Parser α} {g : List Char → Parser β}
    (h : ∀ text, (∀ s r, f text s ≠ .ok r) ∨
      ∃ n, least ≤ n ∧ Follows l n R (f text) (g text) ∧
        ∀ other, Alike (n + l.reach (text.drop n)) text other → g other = g text) :
    Follows l least R (rest >>= f) (rest >>= g) := by
  intro s v s' ran
  have ran : f s.cursor.rest s = .ok (v, s') := ran
  rcases h s.cursor.rest with fails | ⟨n, enough, follows, same⟩
  · exact absurd ran (fails s _)
  · obtain ⟨k, more, rfl, later⟩ := follows s v s' ran
    refine ⟨k, Nat.le_trans enough more, rfl, fun t alike => ?_⟩
    have seen := l.tame (s.cursor.rest.drop n) (k - n)
    rw [List.drop_drop, Nat.add_sub_cancel' more] at seen
    obtain ⟨w, right, result⟩ := later t alike
    refine ⟨w, ?_, result⟩
    show g t.cursor.rest t = _
    rw [same _ (alike.mono (by omega)), right]

theorem follows_take (n : Nat) : Follows l n Eq (take n) (take n) := by
  refine .rest fun text => Or.inr ⟨n, Nat.le_refl n, ?_, fun other alike => ?_⟩
  · exact (follows_skip n).bind fun _ _ _ => .pure rfl
  · have taken : text.take n = other.take n := alike.mono (Nat.le_add_right n _)
    simp only [taken]

theorem follows_skipBlanks : Follows .tag 0 Eq skipBlanks skipBlanks := by
  refine .rest fun text => Or.inr ⟨_, Nat.zero_le _, follows_skip _, fun other alike => ?_⟩
  have sees := Lookahead.tag.sees (text.drop (text.takeWhile Text.isBlank).length)
  rw [takeWhile_alike Text.isBlank (alike.mono (by omega))]

/-- The next character is always seen. -/
theorem head?_of_alike {text other : List Char} (alike : Alike (n + l.reach (text.drop n)) text other) :
    other.head? = text.head? := by
  have sees := l.sees (text.drop n)
  exact (Alike.head?_eq (alike.mono (show 0 + 1 ≤ _ by omega))).symm

theorem follows_expectChar (expected : Char) :
    Follows l 1 Eq (expectChar expected) (expectChar expected) := by
  refine .rest fun text => Or.inr ⟨1, Nat.le_refl 1, ?_, fun other alike => ?_⟩
  · cases text.head? with
    | none => exact .fail _ _
    | some c =>
      dsimp only
      split_ifs
      · exact follows_skip 1
      · exact .fail _ _
  · rw [head?_of_alike alike]

theorem follows_name (what : String) : Follows .tag 1 Eq (name what) (name what) := by
  have shape : name what = (do
      let text ← rest
      let name ← take (text.takeWhile isNameChar).length
      if name.isEmpty then Parser.fail (.missingName what) else return name) := rfl
  rw [shape]
  refine .rest fun text => ?_
  cases run : text.takeWhile isNameChar with
  | nil =>
    refine Or.inl fun s r ran => ?_
    cases ran
  | cons c more =>
    refine Or.inr ⟨(c :: more).length + 0, by simp, ?_, fun other alike => ?_⟩
    · refine (follows_take _).bind fun name _ same => ?_
      subst same
      split_ifs
      · exact .fail _ _
      · exact .pure rfl
    · have sees := Lookahead.tag.sees (text.drop ((c :: more).length + 0))
      have same : (other.takeWhile isNameChar).length = (text.takeWhile isNameChar).length :=
        takeWhile_alike isNameChar (alike.mono (by rw [run]; omega))
      rw [same, run]

/-- What goes on to a mark, which is taken too. -/
theorem follows_upTo (mark : List Char) (marked : mark ≠ []) (fault : ParseFault)
    (position place : Position) {f : String → Parser α} {g : String → Parser β}
    (h : ∀ data, Follows l 0 R (f data) (g data)) :
    Follows l 0 R
      (do
        match distance? mark (← rest) with
        | none => Parser.failAt fault position
        | some n =>
          let data ← take n
          skip mark.length
          f data)
      (do
        match distance? mark (← rest) with
        | none => Parser.failAt fault place
        | some n =>
          let data ← take n
          skip mark.length
          g data) := by
  refine .rest fun text => ?_
  cases found : distance? mark text with
  | none =>
    refine Or.inl fun s r ran => ?_
    cases ran
  | some n =>
    refine Or.inr ⟨n + (mark.length + 0), Nat.zero_le _, ?_, fun other alike => ?_⟩
    · refine (follows_take n).bind fun data _ same => ?_
      subst same
      exact (follows_skip mark.length).bind fun _ _ _ => h _
    · rw [distance?_alike marked found (alike.mono (by omega))]

theorem follows_braced : Follows l 1 (fun v w => v.1 = w.1) braced braced := by
  refine Follows.mono (follows_here.bind fun position place _ =>
    (follows_skip 1).bind fun _ _ _ => follows_here.bind fun inside inside' _ => ?_)
    (show 1 ≤ 0 + (1 + (0 + 0)) by omega)
  refine .rest fun text => ?_
  cases found : bracedLength? 0 none text with
  | none =>
    refine Or.inl fun s r ran => ?_
    cases ran
  | some n =>
    refine Or.inr ⟨n + 1, Nat.zero_le _, ?_, fun other alike => ?_⟩
    · refine (follows_take n).bind fun content _ same => ?_
      subst same
      exact (follows_skip 1).map fun _ _ _ => rfl
    · rw [bracedLength?_alike found (alike.mono (by omega))]

/-- An expression is what its text parses to, wherever the text stands. -/
theorem follows_liftExpression (text : String) (p q : Position) :
    Follows l 0 (Agree Script.Node.unplaced (fun v => v.IsPlain maxNesting ∧
      ∃ place, Script.parseExpression text place = .ok v))
      (liftExpression text p) (liftExpression text q) := by
  intro s v s' ran
  obtain ⟨u, parsed, shape⟩ := map_eq_ok.mp ran
  cases shape
  obtain ⟨w, again, agree⟩ := Script.parseExpression_agree parsed q
  exact ⟨0, Nat.le_refl 0, rfl,
    fun t _ => ⟨w, map_eq_ok.mpr ⟨w, again, rfl⟩, agree.same, agree.plain, p, parsed⟩⟩

theorem follows_mustache : Follows l 0 AgreeTag mustache mustache := by
  refine follows_here.andThen fun position place _ => follows_braced.andThen fun found other same => ?_
  obtain ⟨content, inside⟩ := found
  obtain ⟨content', inside'⟩ := other
  obtain rfl : content = content' := same
  dsimp only
  split_ifs
  · intro s v s' ran
    cases ran
  · refine (follows_liftExpression content inside inside').andThen fun v w agree => .pure ⟨?_, ?_⟩
    · rw [Mustache.unplaced, Mustache.unplaced, agree.same]
    · obtain ⟨plain, origin, parsed⟩ := agree.sound
      exact ⟨plain, content, origin, Text.trimmed_trimmed content, parsed⟩

theorem follows_text {levels : Nat} :
    Follows .wide 0 (AgreeNode levels) Parser.text Parser.text := by
  refine follows_here.andThen fun position place _ => .rest fun text => ?_
  refine Or.inr ⟨textLength text, Nat.zero_le _, ?_, fun other alike => ?_⟩
  · split
    · exact .fail _ _
    · refine (follows_take _).map fun data _ same => ?_
      subst same
      exact ⟨rfl, trivial⟩
  · have four : Lookahead.wide.reach (text.drop (textLength text)) = 4 := rfl
    rw [textLength_alike (alike.mono (by omega))]

theorem follows_comment {levels : Nat} : Follows l 0 (AgreeNode levels) comment comment := by
  refine follows_here.andThen fun position place _ => (follows_skip 4).andThen fun _ _ _ => ?_
  refine follows_upTo "-->".toList (by decide) _ _ _ fun data => ?_
  exact .pure ⟨rfl, trivial⟩

/-- The same value of an attribute up to places, and a sound one. -/
abbrev AgreeValue : AttributeValue → AttributeValue → Prop :=
  Agree AttributeValue.unplaced fun v => ∀ tag, v = .mustache tag → tag.IsSound

theorem AgreeValue.text (p q : Position) (data : String) :
    AgreeValue (.text p data) (.text q data) := by
  refine ⟨rfl, fun tag same => ?_⟩
  cases same

theorem follows_unquoted :
    Follows .tag 0 AgreeValue
      (do
        match unquotedLength (← rest) with
        | 0 => Parser.fail .missingAttributeValue
        | n => return .text position (← take n))
      (do
        match unquotedLength (← rest) with
        | 0 => Parser.fail .missingAttributeValue
        | n => return .text place (← take n)) := by
  refine .rest fun text => ?_
  refine Or.inr ⟨unquotedLength text, Nat.zero_le _, ?_, fun other alike => ?_⟩
  · split
    · exact .fail _ _
    · refine (follows_take _).map fun data _ same => ?_
      subst same
      exact .text _ _ data
  · rw [unquotedLength_alike alike]

theorem follows_attributeValue : Follows .tag 0 AgreeValue attributeValue attributeValue := by
  refine follows_here.andThen fun position place _ => .rest fun text => ?_
  refine Or.inr ⟨0, Nat.zero_le _, ?_, fun other alike => ?_⟩
  · split
    · refine follows_mustache.andThen fun v w agree => .pure ⟨?_, fun tag same => ?_⟩
      · rw [AttributeValue.unplaced, AttributeValue.unplaced, agree.same]
      · cases same
        exact agree.sound
    · next c _ _ =>
      split_ifs
      · refine (follows_skip 1).andThen fun _ _ _ => ?_
        refine follows_upTo [c] (by simp) _ _ _ fun data => ?_
        exact .pure (.text _ _ data)
      · exact follows_unquoted
    · exact .fail _ _
  · rw [head?_of_alike alike]

theorem follows_singleAttribute : Follows .tag 1 AgreeAttribute singleAttribute singleAttribute := by
  refine Follows.mono (follows_here.bind fun position place _ =>
    (follows_name _).bind fun name _ same => ?_) (show 1 ≤ 0 + (1 + 0) by omega)
  subst same
  refine follows_skipBlanks.same fun _ => .rest fun text => ?_
  refine Or.inr ⟨0, Nat.zero_le _, ?_, fun other alike => ?_⟩
  · split_ifs
    · refine (follows_skip 1).same fun _ => follows_skipBlanks.same fun _ => ?_
      refine follows_attributeValue.andThen fun v w agree => .pure ⟨?_, agree.sound⟩
      rw [Attribute.unplaced, Attribute.unplaced, agree.same]
    · refine .pure ⟨rfl, fun tag same => ?_⟩
      cases same
  · rw [head?_of_alike alike]

/-! Attributes and children are read by steps up to one that ends them. -/

/-- Steps up to the one that ends them; a step that takes no character ends them with `last`. -/
def repeated {τ : Type} (step : Parser (α ⊕ τ)) (last : τ) (s : Source) :
    Except ParseError ((List α × τ) × Source) :=
  match step s with
  | .error e => .error e
  | .ok (.inr ended, t) => .ok (([], ended), t)
  | .ok (.inl first, t) =>
    if t.cursor.rest.length < s.cursor.rest.length then
      match repeated step last t with
      | .error e => .error e
      | .ok ((more, ended), u) => .ok ((first :: more, ended), u)
    else .ok (([first], last), t)
termination_by s.cursor.rest.length

theorem repeated_eq_ok {τ : Type} {step : Parser (α ⊕ τ)} {last ended : τ} {s s' : Source}
    {found : List α} :
    repeated step last s = .ok ((found, ended), s') ↔
      (step s = .ok (.inr ended, s') ∧ found = []) ∨
        ∃ first t, step s = .ok (.inl first, t) ∧
          ((t.cursor.rest.length < s.cursor.rest.length ∧
              ∃ more, repeated step last t = .ok ((more, ended), s') ∧ found = first :: more) ∨
            (¬ t.cursor.rest.length < s.cursor.rest.length ∧
              found = [first] ∧ ended = last ∧ s' = t)) := by
  rw [repeated]
  cases step s with
  | error e => simp
  | ok taken =>
    obtain ⟨first | spent, t⟩ := taken
    · by_cases shorter : t.cursor.rest.length < s.cursor.rest.length
      · cases later : repeated step last t with
        | error e => simp [shorter, later]
        | ok rest =>
          obtain ⟨⟨more, spent⟩, u⟩ := rest
          simp only [shorter, later, if_true, Except.ok.injEq, Prod.mk.injEq]
          grind
      · simp only [shorter, if_false, Except.ok.injEq, Prod.mk.injEq]
        grind
    · simp only [Except.ok.injEq, Prod.mk.injEq]
      grind

/-- An attribute, or the end of the tag, whose text is given. -/
def attributeOrEnd : List Char → Parser (Attribute ⊕ Bool)
  | [] => fail .endInsideTag
  | '>' :: _ => do
    skip 1
    return .inr false
  | '/' :: _ => do
    skip 1
    expectChar '>'
    return .inr true
  | '\x7b' :: _ => fail .shorthandAttribute
  | _ => do return .inl (← singleAttribute)

def attributeStep : Parser (Attribute ⊕ Bool) := do
  skipBlanks
  attributeOrEnd (← rest)

theorem attributes_eq (s : Source) : attributes s = repeated attributeStep false s := by
  induction n : s.cursor.rest.length using Nat.strong_induction_on generalizing s with
  | _ n ih =>
    obtain ⟨s1, blank, step⟩ : ∃ s1, skipBlanks s = .ok ((), s1) ∧
        attributeStep s = attributeOrEnd s1.cursor.rest s1 := ⟨_, rfl, rfl⟩
    rw [attributes, repeated, blank, step]
    simp only []
    generalize s1.cursor.rest = text
    split
    · rfl
    · rfl
    · have closing {γ : Type} (v : γ) :
          (do skip 1; expectChar '>'; return v : Parser γ) s1 =
            (expectChar '>' (s1.after 1)).map fun found => (v, found.2) := by
        show (expectChar '>' >>= fun _ => pure v) (s1.after 1) = _
        rw [run_bind]
        cases expectChar '>' (s1.after 1) <;> rfl
      rw [attributeOrEnd, closing, closing]
      cases expectChar '>' (s1.after 1) <;> rfl
    · rfl
    · next empty endMark closingMark brace =>
      rw [show attributeOrEnd text = (do return .inl (← singleAttribute)) by
        rw [attributeOrEnd] <;> assumption, run_bind]
      cases single : singleAttribute s1 with
      | error e => rfl
      | ok found =>
        obtain ⟨first, t⟩ := found
        show (if t.cursor.rest.length < s.cursor.rest.length then _ else _) =
          if t.cursor.rest.length < s.cursor.rest.length then _ else _
        split_ifs with shorter
        · rw [ih _ (n ▸ shorter) t rfl]
          cases repeated attributeStep false t <;> rfl
        · rfl

theorem attributeOrEnd_cons {c : Char} (noEnd : c ≠ '>') (noClosing : c ≠ '/') (noBrace : c ≠ '\x7b')
    (text : List Char) :
    attributeOrEnd (c :: text) = (do return .inl (← singleAttribute)) := by
  rw [attributeOrEnd] <;> simp [noEnd, noClosing, noBrace]

/-- The run from `s` to `s'` takes all that it looks at and as much as is seen ahead of a tag, and the
other parser follows it from any text that begins with what it takes. -/
def Covered (R : α → β → Prop) (q : Parser β) (s : Source) (v : α) (s' : Source) : Prop :=
  ∃ k, Lookahead.tag.reach s.cursor.rest ≤ k ∧ k ≤ s.cursor.rest.length ∧ s' = s.after k ∧
    ∀ t : Source, Alike k s.cursor.rest t.cursor.rest → ∃ w, q t = .ok (w, t.after k) ∧ R v w

theorem Covered.followed {q : Parser β} {s s' : Source} {v : α} (h : Covered R q s v s') :
    Followed l 0 R q s v s' := by
  obtain ⟨k, -, -, same, follows⟩ := h
  exact ⟨k, Nat.zero_le k, same, fun t alike => follows t (alike.mono (Nat.le_add_right k _))⟩

theorem skipBlanks_spec (s : Source) :
    ∃ j, skipBlanks s = .ok ((), s.after j) ∧ ∀ t : Source,
      Alike (j + Lookahead.tag.reach (s.cursor.rest.drop j)) s.cursor.rest t.cursor.rest →
        skipBlanks t = .ok ((), t.after j) := by
  refine ⟨(s.cursor.rest.takeWhile Text.isBlank).length, rfl, fun t alike => ?_⟩
  have sees := Lookahead.tag.sees
    (s.cursor.rest.drop (s.cursor.rest.takeWhile Text.isBlank).length)
  have same := takeWhile_alike Text.isBlank (alike.mono (by omega))
  show Except.ok ((), t.after (t.cursor.rest.takeWhile Text.isBlank).length) = _
  rw [same]

/-- What is read of the text ahead leaves it there. -/
theorem rest_bind (f : List Char → Parser β) (s : Source) :
    (rest >>= f) s = f s.cursor.rest s := rfl

theorem here_bind (f : Position → Parser β) (s : Source) :
    (here >>= f) s = f s.cursor.pos s := rfl

theorem expectChar_eq_ok {c : Char} {s s' : Source} {v : Unit}
    (h : expectChar c s = .ok (v, s')) : s.cursor.rest.head? = some c ∧ s' = s.after 1 := by
  rw [expectChar, rest_bind] at h
  cases next : s.cursor.rest.head? with
  | none =>
    rw [next] at h
    cases h
  | some d =>
    rw [next] at h
    dsimp only at h
    split_ifs at h with same
    · cases h
      exact ⟨by rw [same], rfl⟩
    · cases h

theorem expectChar_cons (c : Char) {s : Source} {more : List Char} (h : s.cursor.rest = c :: more) :
    expectChar c s = .ok ((), s.after 1) := by
  rw [expectChar, rest_bind, h]
  simp only [List.head?_cons, if_true]
  rfl

theorem attributeOrEnd_slash (more : List Char) (s : Source) :
    attributeOrEnd ('/' :: more) s =
      (expectChar '>' (s.after 1)).map fun found => (.inr true, found.2) := by
  show (expectChar '>' >>= fun _ => Pure.pure (.inr true) : Parser (Attribute ⊕ Bool)) (s.after 1) = _
  rw [run_bind]
  cases expectChar '>' (s.after 1) <;> rfl

theorem attributeOrEnd_attribute {c : Char} (noEnd : c ≠ '>') (noClosing : c ≠ '/')
    (noBrace : c ≠ '\x7b') (more : List Char) (s : Source) :
    attributeOrEnd (c :: more) s = (singleAttribute s).map fun found => (.inl found.1, found.2) := by
  rw [attributeOrEnd_cons noEnd noClosing noBrace, run_bind]
  cases singleAttribute s <;> rfl

/-- The end of a tag is seen by itself. -/
theorem attributeOrEnd_ended {s s' : Source} {ended : Bool}
    (h : attributeOrEnd s.cursor.rest s = .ok (.inr ended, s')) :
    ∃ k, Lookahead.tag.reach s.cursor.rest ≤ k ∧ k ≤ s.cursor.rest.length ∧ s' = s.after k ∧
      ∀ t : Source, Alike k s.cursor.rest t.cursor.rest →
        attributeOrEnd t.cursor.rest t = .ok (.inr ended, t.after k) := by
  cases text : s.cursor.rest with
  | nil =>
    rw [text] at h
    cases h
  | cons c more =>
    rw [text] at h
    by_cases noEnd : c = '>'
    · subst noEnd
      cases h
      refine ⟨1, Nat.le_refl 1, by simp, rfl, fun t alike => ?_⟩
      obtain ⟨rest, there, -⟩ := alike.cons
      rw [there]
      rfl
    by_cases noClosing : c = '/'
    · subst noClosing
      rw [attributeOrEnd_slash] at h
      obtain ⟨⟨_, u⟩, closes, last⟩ := map_eq_ok.mp h
      cases last
      obtain ⟨next, rfl⟩ := expectChar_eq_ok closes
      rw [Source.after_rest, text, List.drop_one, List.tail_cons] at next
      obtain ⟨tail, rfl⟩ := List.head?_eq_some_iff.mp next
      refine ⟨2, Nat.le_refl 2, by simp, (s.after_add 1 1).symm, fun t alike => ?_⟩
      obtain ⟨_, there, behind⟩ := alike.cons
      obtain ⟨rest, rfl, -⟩ := behind.cons
      rw [there, attributeOrEnd_slash,
        expectChar_cons '>' (show (t.after 1).cursor.rest = '>' :: rest by simp [there]),
        t.after_add 1 1]
      rfl
    by_cases noBrace : c = '\x7b'
    · subst noBrace
      cases h
    rw [attributeOrEnd_attribute noEnd noClosing noBrace] at h
    obtain ⟨_, -, last⟩ := map_eq_ok.mp h
    cases last

/-- An attribute never begins with a slash. -/
theorem attributeOrEnd_further {s s' : Source} {a : Attribute}
    (h : attributeOrEnd s.cursor.rest s = .ok (.inl a, s')) :
    ∃ k, Lookahead.tag.reach s.cursor.rest ≤ k ∧ s' = s.after k ∧ ∀ t : Source,
      Alike (k + Lookahead.tag.reach (s.cursor.rest.drop k)) s.cursor.rest t.cursor.rest →
        ∃ b, attributeOrEnd t.cursor.rest t = .ok (.inl b, t.after k) ∧ AgreeAttribute a b := by
  cases text : s.cursor.rest with
  | nil =>
    rw [text] at h
    cases h
  | cons c more =>
    rw [text] at h
    by_cases noEnd : c = '>'
    · subst noEnd
      cases h
    by_cases noClosing : c = '/'
    · subst noClosing
      rw [attributeOrEnd_slash] at h
      obtain ⟨_, -, last⟩ := map_eq_ok.mp h
      cases last
    by_cases noBrace : c = '\x7b'
    · subst noBrace
      cases h
    rw [attributeOrEnd_attribute noEnd noClosing noBrace] at h
    obtain ⟨⟨_, _⟩, single, last⟩ := map_eq_ok.mp h
    cases last
    obtain ⟨k, some, rfl, follows⟩ := follows_singleAttribute s _ _ single
    have one : Lookahead.tag.reach (c :: more) = 1 := by simp [Lookahead.tag, noClosing]
    refine ⟨k, by omega, rfl, fun t alike => ?_⟩
    rw [← text] at alike
    obtain ⟨b, again, agree⟩ := follows t alike
    rw [text] at alike
    obtain ⟨rest, there, -⟩ := (alike.mono (show 0 + 1 ≤ _ by omega)).cons
    refine ⟨b, ?_, agree⟩
    rw [there, attributeOrEnd_attribute noEnd noClosing noBrace, again]
    rfl

theorem attributeStep_eq {s : Source} {j : Nat} (blank : skipBlanks s = .ok ((), s.after j)) :
    attributeStep s = attributeOrEnd (s.after j).cursor.rest (s.after j) := by
  rw [attributeStep, run_bind, blank]
  rfl

theorem attributeStep_ended {s s' : Source} {ended : Bool}
    (h : attributeStep s = .ok (.inr ended, s')) :
    ∃ k, Lookahead.tag.reach s.cursor.rest ≤ k ∧ k ≤ s.cursor.rest.length ∧ s' = s.after k ∧
      ∀ t : Source, Alike k s.cursor.rest t.cursor.rest →
        attributeStep t = .ok (.inr ended, t.after k) := by
  obtain ⟨j, blank, blanks⟩ := skipBlanks_spec s
  rw [attributeStep_eq blank] at h
  obtain ⟨k, enough, short, rfl, ends⟩ := attributeOrEnd_ended h
  have sees := Lookahead.tag.sees (s.after j).cursor.rest
  have tame := Lookahead.tag.tame s.cursor.rest j
  rw [Source.after_rest] at enough short sees
  rw [List.length_drop] at short
  refine ⟨j + k, by omega, by omega, (s.after_add j k).symm, fun t alike => ?_⟩
  rw [attributeStep_eq (blanks t (alike.mono (by omega))), ends (t.after j) alike.drop, t.after_add]

theorem attributeStep_further {s s' : Source} {a : Attribute}
    (h : attributeStep s = .ok (.inl a, s')) :
    ∃ k, Lookahead.tag.reach s.cursor.rest ≤ k ∧ s' = s.after k ∧ ∀ t : Source,
      Alike (k + Lookahead.tag.reach (s.cursor.rest.drop k)) s.cursor.rest t.cursor.rest →
        ∃ b, attributeStep t = .ok (.inl b, t.after k) ∧ AgreeAttribute a b := by
  obtain ⟨j, blank, blanks⟩ := skipBlanks_spec s
  rw [attributeStep_eq blank] at h
  obtain ⟨k, enough, rfl, further⟩ := attributeOrEnd_further h
  have tame := Lookahead.tag.tame s.cursor.rest j
  rw [Source.after_rest] at enough
  refine ⟨j + k, by omega, (s.after_add j k).symm, fun t alike => ?_⟩
  rw [attributeStep_eq (blanks t (alike.mono (by omega)))]
  rw [Nat.add_assoc, ← List.drop_drop] at alike
  obtain ⟨b, again, agree⟩ := further (t.after j) alike.drop
  exact ⟨b, by rw [again, t.after_add], agree⟩

/-- Attributes are read up to the end of the tag, and nothing behind it is looked at. -/
theorem covered_attributes {s s' : Source} {v : List Attribute × Bool}
    (h : attributes s = .ok (v, s')) :
    Covered (fun v w => AgreeAttributes v.1 w.1 ∧ v.2 = w.2) attributes s v s' := by
  induction n : s.cursor.rest.length using Nat.strong_induction_on generalizing s s' v with
  | _ n ih =>
    obtain ⟨found, ended⟩ := v
    rw [attributes_eq] at h
    rcases repeated_eq_ok.mp h with ⟨step, rfl⟩ | ⟨a, u, step, rest⟩
    · obtain ⟨k, enough, short, same, ends⟩ := attributeStep_ended step
      refine ⟨k, enough, short, same, fun t alike => ⟨([], ended), ?_, .nil, rfl⟩⟩
      rw [attributes_eq]
      exact repeated_eq_ok.mpr (Or.inl ⟨ends t alike, rfl⟩)
    · obtain ⟨j, enough, rfl, further⟩ := attributeStep_further step
      have sees := Lookahead.tag.sees s.cursor.rest
      rcases rest with ⟨shorter, more, later, rfl⟩ | ⟨stuck, -⟩
      · rw [← attributes_eq] at later
        obtain ⟨k, reach, short, rfl, follows⟩ := ih _ (n ▸ shorter) later rfl
        have sees' := Lookahead.tag.sees (s.after j).cursor.rest
        rw [Source.after_rest] at reach short sees'
        rw [List.length_drop] at short
        refine ⟨j + k, by omega, by omega, (s.after_add j k).symm, fun t alike => ?_⟩
        obtain ⟨b, again, agree⟩ := further t (alike.mono (by omega))
        obtain ⟨⟨others, ended'⟩, last, agrees, same⟩ := follows (t.after j) alike.drop
        refine ⟨(b :: others, ended'), ?_, .cons agree agrees, same⟩
        rw [attributes_eq] at last ⊢
        refine repeated_eq_ok.mpr (Or.inr ⟨b, t.after j, again, Or.inl ⟨?_, others, ?_, rfl⟩⟩)
        · exact (Alike.drop_shorter (alike.mono (show 0 + 1 ≤ _ by omega))).mp shorter
        · rw [last, t.after_add]
      · -- An attribute always takes a character.
        rw [Source.after_rest, List.length_drop] at stuck
        have empty : s.cursor.rest = [] := List.length_eq_zero_iff.mp (by omega)
        obtain ⟨i, blank, -⟩ := skipBlanks_spec s
        rw [attributeStep_eq blank, Source.after_rest, empty, List.drop_nil] at step
        cases step

/-- A tag that closes itself ends in a slash and an angle bracket. -/
theorem attributeStep_closed {s s' : Source} (h : attributeStep s = .ok (.inr true, s')) :
    ∃ k, k ≤ s.cursor.rest.length ∧ s' = s.after k ∧ "/>".toList <:+ s.cursor.rest.take k := by
  obtain ⟨j, blank, -⟩ := skipBlanks_spec s
  rw [attributeStep_eq blank] at h
  cases text : (s.after j).cursor.rest with
  | nil =>
    rw [text] at h
    cases h
  | cons c more =>
    rw [text] at h
    by_cases noEnd : c = '>'
    · subst noEnd
      cases h
    by_cases noClosing : c = '/'
    · subst noClosing
      rw [attributeOrEnd_slash] at h
      obtain ⟨⟨_, u⟩, closes, last⟩ := map_eq_ok.mp h
      cases last
      obtain ⟨next, rfl⟩ := expectChar_eq_ok closes
      rw [Source.after_rest, text, List.drop_one, List.tail_cons] at next
      obtain ⟨tail, rfl⟩ := List.head?_eq_some_iff.mp next
      rw [Source.after_rest] at text
      have size := congrArg List.length text
      simp only [List.length_drop, List.length_cons] at size
      refine ⟨j + 2, by omega, ?_, ?_⟩
      · rw [s.after_add j 2]
        exact ((s.after j).after_add 1 1).symm
      · rw [List.take_add, text]
        exact List.suffix_append _ _
    by_cases noBrace : c = '\x7b'
    · subst noBrace
      cases h
    rw [attributeOrEnd_attribute noEnd noClosing noBrace] at h
    obtain ⟨_, -, last⟩ := map_eq_ok.mp h
    cases last

theorem attributes_closed {s s' : Source} {found : List Attribute}
    (h : attributes s = .ok ((found, true), s')) :
    ∃ k, k ≤ s.cursor.rest.length ∧ s' = s.after k ∧ "/>".toList <:+ s.cursor.rest.take k := by
  induction n : s.cursor.rest.length using Nat.strong_induction_on generalizing s s' found with
  | _ n ih =>
    rw [attributes_eq] at h
    rcases repeated_eq_ok.mp h with ⟨step, rfl⟩ | ⟨a, u, step, rest⟩
    · obtain ⟨k, within, same, closes⟩ := attributeStep_closed step
      exact ⟨k, n ▸ within, same, closes⟩
    · obtain ⟨j, -, rfl, -⟩ := attributeStep_further step
      rcases rest with ⟨shorter, more, later, rfl⟩ | ⟨-, -, last, -⟩
      · rw [← attributes_eq] at later
        obtain ⟨k, within, rfl, closes⟩ := ih _ (n ▸ shorter) later rfl
        rw [Source.after_rest] at closes
        have two : 2 ≤ ((s.cursor.rest.drop j).take k).length := closes.length_le
        rw [List.length_take, List.length_drop] at two
        rw [Source.after_rest, List.length_drop] at within
        refine ⟨j + k, by omega, (s.after_add j k).symm, ?_⟩
        rw [List.take_add]
        exact closes.trans (List.suffix_append _ _)
      · cases last

end Parser

end Dashboard.Markup
