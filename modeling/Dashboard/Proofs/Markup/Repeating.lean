import Dashboard.Proofs.Markup.Inserting

/-!
Steps that are repeated up to one that ends them. Steps that meet the script region or are followed do so
together.
-/
namespace Dashboard.Markup

variable {insertion : List Char}

namespace Parser

variable {α β γ δ τ : Type} {R : α → β → Prop} {S : γ → δ → Prop} {T : τ → τ → Prop}

theorem Keeps.map {p : Parser α} (f : α → γ) (h : Keeps p) : Keeps (do return f (← p)) :=
  h.bind fun v => .pure (f v)

theorem Steady.map {p : Parser α} {q : Parser β} {f : α → γ} {g : β → δ}
    (h : Steady insertion R p q) (related : ∀ v w, R v w → S (f v) (g w)) :
    Steady insertion S (do return f (← p)) (do return g (← q)) :=
  h.bind (fun v w same => (Follows.pure (related v w same)).steady) fun w => .pure (g w)

theorem Steady.failAt (fault : ParseFault) (position : Position) (q : Parser β) :
    Steady insertion R (Parser.failAt fault position) q := by
  intro s v s' ran
  cases ran

theorem Steady.throw (e : ParseError) (q : Parser β) :
    Steady insertion R (MonadExcept.throw e : Parser α) q := by
  intro s v s' ran
  cases ran

theorem Keeps.repeated {step : Parser (α ⊕ τ)} (last : τ) (h : Keeps step) :
    Keeps (repeated step last) := by
  intro s v s' ran isSome
  induction n : s.cursor.rest.length using Nat.strong_induction_on generalizing s v with
  | _ n ih =>
    obtain ⟨found, ended⟩ := v
    rcases repeated_eq_ok.mp ran with ⟨spent, -⟩ | ⟨first, t, taken, rest⟩
    · exact h s _ s' spent isSome
    · have same := h s _ t taken isSome
      rcases rest with ⟨shorter, more, later, -⟩ | ⟨-, -, -, rfl⟩
      · rw [ih _ (n ▸ shorter) t _ later (by rw [same, isSome]) rfl, same]
      · exact same

/-- The same steps with the same end. -/
abbrev AgreeSteps (R : α → β → Prop) (T : τ → τ → Prop) (v : List α × τ) (w : List β × τ) : Prop :=
  List.Forall₂ R v.1 w.1 ∧ T v.2 w.2

section Steps

variable {p : Parser (α ⊕ τ)} {q : Parser (β ⊕ τ)} {last : τ} {s s1 s' : Source}

theorem Followed.ended {ended : τ} (h : Followed .wide 0 (Sum.LiftRel R T) q s (.inr ended) s') :
    Followed .wide 0 (AgreeSteps R T) (repeated q last) s ([], ended) s' := by
  obtain ⟨k, least, rfl, follows⟩ := h
  refine ⟨k, least, rfl, fun t alike => ?_⟩
  obtain ⟨w, again, agree⟩ := follows t alike
  cases agree with
  | inr same => exact ⟨([], _), repeated_eq_ok.mpr (Or.inl ⟨again, rfl⟩), .nil, same⟩

theorem Followed.stuck {first : α} (same : T last last)
    (h : Followed .wide 0 (Sum.LiftRel R T) q s (.inl first) s')
    (stuck : ¬ s'.cursor.rest.length < s.cursor.rest.length) :
    Followed .wide 0 (AgreeSteps R T) (repeated q last) s ([first], last) s' := by
  obtain ⟨k, least, rfl, follows⟩ := h
  refine ⟨k, least, rfl, fun t alike => ?_⟩
  obtain ⟨w, again, agree⟩ := follows t alike
  have progress := Alike.drop_shorter (k := k) (alike.mono (show 3 + 1 ≤ _ from Nat.le_add_left 4 k))
  cases agree with
  | inl agree =>
    exact ⟨([_], last), repeated_eq_ok.mpr
      (Or.inr ⟨_, _, again, Or.inr ⟨fun shorter => stuck (progress.mpr shorter), rfl, rfl, rfl⟩⟩),
      .cons agree .nil, same⟩

theorem Followed.further {first : α} {more : List α × τ}
    (h : Followed .wide 0 (Sum.LiftRel R T) q s (.inl first) s1)
    (shorter : s1.cursor.rest.length < s.cursor.rest.length)
    (later : Followed .wide 0 (AgreeSteps R T) (repeated q last) s1 more s') :
    Followed .wide 0 (AgreeSteps R T) (repeated q last) s (first :: more.1, more.2) s' := by
  obtain ⟨j, -, rfl, follows⟩ := h
  obtain ⟨k, -, rfl, followsMore⟩ := later
  refine ⟨j + k, Nat.zero_le _, (s.after_add j k).symm, fun t alike => ?_⟩
  have four (text : List Char) : Lookahead.wide.reach text = 4 := rfl
  rw [four] at alike
  have progress := Alike.drop_shorter (k := j) (alike.mono (show 3 + 1 ≤ j + k + 4 by omega))
  obtain ⟨w, again, agree⟩ := follows t (alike.mono (by rw [four]; omega))
  rw [Nat.add_assoc] at alike
  obtain ⟨others, ran, rest⟩ := followsMore (t.after j) alike.drop
  cases agree with
  | inl agree =>
    refine ⟨(_ :: others.1, others.2), repeated_eq_ok.mpr
      (Or.inr ⟨_, _, again, Or.inl ⟨progress.mp shorter, others.1, ?_, rfl⟩⟩),
      .cons agree rest.1, rest.2⟩
    rw [ran, t.after_add]

theorem exists_agreeSteps {first : α} {more : List α × τ}
    (h : ∃ w, Sum.LiftRel R T (.inl first : α ⊕ τ) w) (later : ∃ w, AgreeSteps R T more w) :
    ∃ w, AgreeSteps R T (first :: more.1, more.2) w := by
  obtain ⟨w, agree⟩ := h
  obtain ⟨others, rest, ends⟩ := later
  cases agree with
  | inl agree => exact ⟨(_ :: others.1, others.2), .cons agree rest, ends⟩

/-- A region that is met in one of the steps stays. -/
theorem Carries.repeated {first : α ⊕ τ} {region : ScriptRegion} {t : Source} (keeps : Keeps q)
    (h : Carries insertion (Sum.LiftRel R T) q s first s1 region t) :
    ∀ w t', repeated q last t = .ok (w, t') → ∃ other, t'.script = some other ∧
      (other.raw.toList = insertion ++ region.raw.toList ∨ other.raw = "") := by
  intro w t' ran
  obtain ⟨found, ended⟩ := w
  rcases repeated_eq_ok.mp ran with ⟨spent, -⟩ | ⟨first, u, taken, rest⟩
  · exact h.meets _ t' spent
  · obtain ⟨other, met', raw⟩ := h.meets _ u taken
    refine ⟨other, ?_, raw⟩
    rcases rest with ⟨-, more, later, -⟩ | ⟨-, -, -, rfl⟩
    · rw [keeps.repeated last u _ t' later (by rw [met']; rfl), met']
    · exact met'

/-- The region is met in the step that ends the others. -/
theorem Introduces.ended {ended : τ} (keeps : Keeps q)
    (h : Introduces insertion (Sum.LiftRel R T) q s (.inr ended) s') :
    Introduces insertion (AgreeSteps R T) (repeated q last) s ([], ended) s' := by
  obtain ⟨⟨w, agree⟩, fresh, shorter, region, met, ahead, there⟩ := h
  refine ⟨?_, fresh, shorter, region, met, ahead, fun t inserted =>
    ⟨(there t inserted).repeated keeps, fun none isOpen => ?_⟩⟩
  · cases agree with
    | inr ends => exact ⟨([], _), .nil, ends⟩
  · obtain ⟨w, t', ran, agree, same⟩ := (there t inserted).resumes none isOpen
    cases agree with
    | inr ends => exact ⟨([], _), t', repeated_eq_ok.mpr (Or.inl ⟨ran, rfl⟩), ⟨.nil, ends⟩, same⟩

/-- The region is met in a step behind which no other is. -/
theorem Introduces.before {first : α} {more : List α × τ} (keeps : Keeps q)
    (h : Introduces insertion (Sum.LiftRel R T) q s (.inl first) s1)
    (later : Followed .wide 0 (AgreeSteps R T) (Parser.repeated q last) s1 more s') :
    Introduces insertion (AgreeSteps R T) (Parser.repeated q last) s (first :: more.1, more.2) s' := by
  obtain ⟨step, fresh, shorter, region, met, ahead, there⟩ := h
  refine ⟨exists_agreeSteps step later.related, fresh, later.length_le.trans_lt shorter, region,
    by rw [later.script_eq, met], ahead, fun t inserted =>
      ⟨(there t inserted).repeated keeps, fun none isOpen => ?_⟩⟩
  obtain ⟨w, t1, ran, agree, ⟨same, other, met', raw⟩⟩ := (there t inserted).resumes none isOpen
  obtain ⟨others, t', further, rest, same', script⟩ := later.resumed same
  have longer := inserted.length_le
  cases agree with
  | inl agree =>
    refine ⟨(_ :: others.1, others.2), t', repeated_eq_ok.mpr (Or.inr ⟨_, t1, ran,
      Or.inl ⟨by rw [same]; omega, others.1, further, rfl⟩⟩), ⟨.cons agree rest.1, rest.2⟩,
      ⟨same', other, by rw [script, met'], raw⟩⟩

theorem Introduces.further {first : α} {more : List α × τ}
    (h : Followed .wide 0 (Sum.LiftRel R T) q s (.inl first) s1)
    (shorter : s1.cursor.rest.length < s.cursor.rest.length)
    (later : Introduces insertion (AgreeSteps R T) (Parser.repeated q last) s1 more s') :
    Introduces insertion (AgreeSteps R T) (Parser.repeated q last) s (first :: more.1, more.2) s' := by
  have step := h.related
  obtain ⟨k, -, rfl, follows⟩ := h
  obtain ⟨result, fresh, less, region, met, ahead, there⟩ := later
  have before := ahead.before
  refine ⟨exists_agreeSteps step result, fresh, less.trans shorter, region, met, ahead.of_after,
    fun t inserted => ?_⟩
  have alike := inserted.alike before
  obtain ⟨w', again, agree⟩ := follows t alike
  have progress := Alike.drop_shorter (k := k) (alike.mono (show 3 + 1 ≤ k + 4 by omega))
  obtain ⟨finds, resumes⟩ := there _ (inserted.after (show s.cursor.pos.offset + k ≤ _ by omega))
  cases agree with
  | inl agree =>
    constructor
    · rintro ⟨found, ended⟩ t' ran
      rcases repeated_eq_ok.mp ran with ⟨spent, -⟩ | ⟨b, u, taken, rest⟩
      · rw [again] at spent
        cases spent
      · rw [again] at taken
        cases taken
        rcases rest with ⟨-, more, further, -⟩ | ⟨stuck, -⟩
        · exact finds _ t' further
        · exact absurd (progress.mp shorter) stuck
    · intro none isOpen
      obtain ⟨others, t', further, rest, same⟩ := resumes none (isOpen.after ahead.short)
      exact ⟨(_ :: others.1, others.2), t', repeated_eq_ok.mpr (Or.inr ⟨_, _, again,
        Or.inl ⟨progress.mp shorter, others.1, further, rfl⟩⟩), ⟨.cons agree rest.1, rest.2⟩, same⟩

end Steps

theorem Steady.related {p : Parser α} {q : Parser β} (h : Steady insertion R p q) {s s' : Source}
    {v : α} (ran : p s = .ok (v, s')) : ∃ w, R v w := by
  rcases h s v s' ran with followed | meets
  · exact followed.related
  · exact meets.1

/-- Steps that are steady are steady together. -/
theorem Steady.repeated {p : Parser (α ⊕ τ)} {q : Parser (β ⊕ τ)} {last : τ}
    (h : Steady insertion (Sum.LiftRel R T) p q) (keeps : Keeps q) (same : T last last) :
    Steady insertion (AgreeSteps R T) (repeated p last) (repeated q last) := by
  intro s v s' ran
  induction n : s.cursor.rest.length using Nat.strong_induction_on generalizing s v with
  | _ n ih =>
    obtain ⟨found, ended⟩ := v
    rcases repeated_eq_ok.mp ran with ⟨spent, rfl⟩ | ⟨first, s1, taken, rest⟩
    · rcases h s _ s' spent with followed | meets
      · exact Or.inl followed.ended
      · exact Or.inr (meets.ended keeps)
    · rcases rest with ⟨shorter, more, later, rfl⟩ | ⟨stuck, rfl, rfl, rfl⟩
      · have rest := ih _ (n ▸ shorter) s1 _ later rfl
        rcases h s _ s1 taken with followed | meets
        · rcases rest with quiet | meets
          · exact Or.inl (followed.further shorter quiet)
          · exact Or.inr (Introduces.further followed shorter meets)
        · rcases rest with quiet | ⟨-, fresh, -⟩
          · exact Or.inr (meets.before keeps quiet)
          · obtain ⟨-, -, -, region, met, -⟩ := meets
            rw [met] at fresh
            cases fresh
      · rcases h s _ s' taken with followed | ⟨-, -, shorter, -⟩
        · exact Or.inl (followed.stuck same stuck)
        · exact absurd shorter stuck

end Parser

end Dashboard.Markup
