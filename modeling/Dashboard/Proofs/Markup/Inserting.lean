import Dashboard.Proofs.Markup.Reading

/-!
Putting a text at the start of the script region. Up to the region the document is parsed as before,
and the text then stands before the body of the region, unless the tag of the region closes itself.
-/
namespace Dashboard.Markup

variable {insertion : List Char} {offset k m n : Nat}

namespace Source

/-- The text of `t` is the text of `s` with an insertion at an offset. -/
def Inserted (insertion : List Char) (offset : Nat) (s t : Source) : Prop :=
  ∃ before behind, s.cursor.rest = before ++ behind ∧
    t.cursor.rest = before ++ (insertion ++ behind) ∧ s.cursor.pos.offset + before.length = offset

theorem after_offset (s : Source) (k : Nat) :
    (s.after k).cursor.pos.offset = s.cursor.pos.offset + min k s.cursor.rest.length := by
  show (s.cursor.pos.advance (s.cursor.rest.take k)).offset = _
  rw [Position.advance_offset, List.length_take]

variable {s t : Source}

theorem Inserted.alike (h : s.Inserted insertion offset t)
    (early : s.cursor.pos.offset + n ≤ offset) : Alike n s.cursor.rest t.cursor.rest := by
  obtain ⟨before, behind, here, there, rfl⟩ := h
  unfold Alike
  rw [here, there, List.take_append_of_le_length (by omega),
    List.take_append_of_le_length (by omega)]

theorem Inserted.after (h : s.Inserted insertion offset t)
    (early : s.cursor.pos.offset + n ≤ offset) : (s.after n).Inserted insertion offset (t.after n) := by
  obtain ⟨before, behind, here, there, rfl⟩ := h
  refine ⟨before.drop n, behind, ?_, ?_, ?_⟩
  · rw [after_rest, here, List.drop_append_of_le_length (by omega)]
  · rw [after_rest, there, List.drop_append_of_le_length (by omega)]
  · rw [after_offset, List.length_drop, here, List.length_append]
    omega

theorem Inserted.length_le (h : s.Inserted insertion offset t) :
    s.cursor.rest.length ≤ t.cursor.rest.length := by
  obtain ⟨before, behind, here, there, -⟩ := h
  rw [here, there]
  simp

/-- The offset lies further ahead than any step looks, and within the text. -/
structure Ahead (offset : Nat) (s : Source) : Prop where
  beyond : s.cursor.pos.offset + 4 ≤ offset
  within : offset ≤ s.cursor.pos.offset + s.cursor.rest.length

theorem Ahead.before (h : (s.after k).Ahead offset) : s.cursor.pos.offset + (k + 4) ≤ offset := by
  obtain ⟨beyond, within⟩ := h
  rw [after_offset] at beyond within
  rw [after_rest, List.length_drop] at within
  omega

theorem Ahead.of_after (h : (s.after k).Ahead offset) : s.Ahead offset := by
  have before := h.before
  obtain ⟨-, within⟩ := h
  rw [after_offset, after_rest, List.length_drop] at within
  exact ⟨by omega, by omega⟩

theorem Ahead.short (h : (s.after k).Ahead offset) : k ≤ s.cursor.rest.length := by
  have before := h.before
  have within := h.of_after.within
  omega

/-- The text up to the offset does not end like a tag that closes itself. -/
def IsOpen (offset : Nat) (s : Source) : Prop :=
  ¬ "/>".toList <:+ s.cursor.rest.take (offset - s.cursor.pos.offset)

theorem IsOpen.after (h : s.IsOpen offset) (short : k ≤ s.cursor.rest.length) :
    (s.after k).IsOpen offset := by
  intro closes
  refine h (closes.trans ?_)
  rw [after_offset, Nat.min_eq_left short, after_rest]
  have apart : offset - (s.cursor.pos.offset + k) = offset - s.cursor.pos.offset - k := by omega
  rw [apart, ← List.drop_take]
  exact List.drop_suffix _ _

end Source

namespace Parser

variable {α β γ δ : Type} {R : α → β → Prop} {S : γ → δ → Prop}

/-- With an insertion the same text is left, behind a region whose body begins with the insertion. -/
structure Resumes (insertion : List Char) (region : ScriptRegion) (s' t' : Source) : Prop where
  rest : t'.cursor.rest = s'.cursor.rest
  met : ∃ other, t'.script = some other ∧ other.raw.toList = insertion ++ region.raw.toList

/-- A run of the other parser, from a text with an insertion at the start of the region, meets a region
as well, whose body begins with the insertion or is empty; and there is such a run, with a related
result, if the tag of the region does not close itself. -/
structure Carries (insertion : List Char) (R : α → β → Prop) (q : Parser β) (s : Source) (v : α)
    (s' : Source) (region : ScriptRegion) (t : Source) : Prop where
  meets : ∀ w t', q t = .ok (w, t') → ∃ other, t'.script = some other ∧
    (other.raw.toList = insertion ++ region.raw.toList ∨ other.raw = "")
  resumes : t.script = none → s.IsOpen region.origin.offset →
    ∃ w t', q t = .ok (w, t') ∧ R v w ∧ Resumes insertion region s' t'

/-- The run from `s` to `s'` meets the script region, and so do runs with an insertion at the start of
the region. The result is one that is related to some result. -/
def Introduces (insertion : List Char) (R : α → β → Prop) (q : Parser β) (s : Source) (v : α)
    (s' : Source) : Prop :=
  (∃ w, R v w) ∧ s.script = none ∧ s'.cursor.rest.length < s.cursor.rest.length ∧
    ∃ region, s'.script = some region ∧ s.Ahead region.origin.offset ∧
      ∀ t, s.Inserted insertion region.origin.offset t → Carries insertion R q s v s' region t

/-- Every run that succeeds meets the script region or is followed. -/
def Steady (insertion : List Char) (R : α → β → Prop) (p : Parser α) (q : Parser β) : Prop :=
  ∀ s v s', p s = .ok (v, s') → Followed .wide 0 R q s v s' ∨ Introduces insertion R q s v s'

/-- A script region that has been met stays. -/
def Keeps (p : Parser α) : Prop :=
  ∀ s v s', p s = .ok (v, s') → s.script.isSome = true → s'.script = s.script

theorem Followed.script_eq {l : Lookahead} {q : Parser β} {s s' : Source} {v : α}
    (h : Followed l n R q s v s') : s'.script = s.script := by
  obtain ⟨k, -, rfl, -⟩ := h
  rfl

theorem Followed.related {l : Lookahead} {q : Parser β} {s s' : Source} {v : α}
    (h : Followed l n R q s v s') : ∃ w, R v w := by
  obtain ⟨k, -, -, follows⟩ := h
  obtain ⟨w, -, related⟩ := follows s (.refl _ _)
  exact ⟨w, related⟩

theorem Introduces.script_ne {q : Parser β} {s s' : Source} {v : α}
    (h : Introduces insertion R q s v s') : s'.script ≠ s.script := by
  obtain ⟨-, fresh, -, region, met, -⟩ := h
  rw [fresh, met]
  simp

theorem Introduces.mono {R' : α → β → Prop} {q : Parser β} {s s' : Source} {v : α}
    (h : Introduces insertion R q s v s') (related : ∀ w, R v w → R' v w) :
    Introduces insertion R' q s v s' := by
  obtain ⟨⟨w, here⟩, fresh, shorter, region, met, ahead, there⟩ := h
  refine ⟨⟨w, related w here⟩, fresh, shorter, region, met, ahead, fun t inserted => ?_⟩
  obtain ⟨meets, resumes⟩ := there t inserted
  refine ⟨meets, fun none isOpen => ?_⟩
  obtain ⟨w, t', ran, agree, same⟩ := resumes none isOpen
  exact ⟨w, t', ran, related w agree, same⟩

/-- The other parser goes on alike where the same text is left. -/
theorem Followed.resumed {l : Lookahead} {q : Parser β} {s s' t : Source} {v : α}
    (h : Followed l n R q s v s') (same : t.cursor.rest = s.cursor.rest) :
    ∃ w t', q t = .ok (w, t') ∧ R v w ∧ t'.cursor.rest = s'.cursor.rest ∧ t'.script = t.script := by
  obtain ⟨k, -, rfl, follows⟩ := h
  obtain ⟨w, ran, related⟩ := follows t (by rw [same]; exact .refl _ _)
  exact ⟨w, _, ran, related, by rw [Source.after_rest, Source.after_rest, same], rfl⟩

theorem Followed.length_le {l : Lookahead} {q : Parser β} {s s' : Source} {v : α}
    (h : Followed l n R q s v s') : s'.cursor.rest.length ≤ s.cursor.rest.length := by
  obtain ⟨k, -, rfl, -⟩ := h
  rw [Source.after_rest, List.length_drop]
  exact Nat.sub_le _ _

theorem Steady.keeps {p : Parser α} {q : Parser β} (h : Steady insertion R p q) : Keeps p := by
  intro s v s' ran isSome
  rcases h s v s' ran with followed | ⟨-, fresh, -⟩
  · exact followed.script_eq
  · rw [fresh] at isSome
    cases isSome

theorem Keeps.bind {p : Parser α} {f : α → Parser γ} (h : Keeps p) (next : ∀ v, Keeps (f v)) :
    Keeps (p >>= f) := by
  intro s u s' ran isSome
  obtain ⟨v, s1, first, second⟩ := run_bind_eq_ok.mp ran
  have same := h s v s1 first isSome
  rw [next v s1 u s' second (by rw [same, isSome]), same]

theorem Keeps.pure (v : α) : Keeps (Pure.pure v) := by
  intro s u s' ran _
  cases ran
  rfl

theorem Keeps.throw (e : ParseError) : Keeps (MonadExcept.throw e : Parser α) := by
  intro s u s' ran
  cases ran

theorem Follows.steady {p : Parser α} {q : Parser β} (h : Follows .wide n R p q) :
    Steady insertion R p q :=
  fun s v s' ran => Or.inl ((h s v s' ran).mono (Nat.zero_le n))

theorem Followed.thenSteady {q : Parser β} {g : β → Parser δ} {s s1 s' : Source} {v : α} {u : γ}
    (h : Followed .wide n R q s v s1)
    (next : ∀ w, R v w → Followed .wide 0 S (g w) s1 u s' ∨ Introduces insertion S (g w) s1 u s') :
    Followed .wide 0 S (q >>= g) s u s' ∨ Introduces insertion S (q >>= g) s u s' := by
  by_cases untouched : s'.script = s1.script
  · refine Or.inl (Followed.mono (h.bind (n := 0) fun w related => ?_) (Nat.zero_le _))
    rcases next w related with quiet | meets
    · exact quiet
    · exact absurd untouched meets.script_ne
  · refine Or.inr ?_
    obtain ⟨k, -, rfl, follows⟩ := h
    have meets (w : β) (related : R v w) : Introduces insertion S (g w) (s.after k) u s' := by
      rcases next w related with quiet | meets
      · exact absurd quiet.script_eq untouched
      · exact meets
    obtain ⟨w, -, related⟩ := follows s (.refl _ _)
    obtain ⟨result, fresh, shorter, region, met, ahead, -⟩ := meets w related
    have before := ahead.before
    rw [Source.after_rest, List.length_drop] at shorter
    refine ⟨result, fresh, by omega, region, met, ahead.of_after, fun t inserted => ?_⟩
    obtain ⟨w, again, related⟩ := follows t (inserted.alike before)
    obtain ⟨-, -, -, region', met', -, there⟩ := meets w related
    obtain rfl : region = region' := by
      rw [met] at met'
      exact Option.some.inj met'
    obtain ⟨finds, resumes⟩ := there _ (inserted.after (by omega))
    constructor
    · intro w' t' ran
      obtain ⟨b, t1, left, right⟩ := run_bind_eq_ok.mp ran
      rw [again] at left
      cases left
      exact finds w' t' right
    · intro none isOpen
      obtain ⟨w', t', right, agree, same⟩ := resumes none (isOpen.after ahead.short)
      exact ⟨w', t', run_bind_eq_ok.mpr ⟨w, _, again, right⟩, agree, same⟩

theorem Steady.bind {p : Parser α} {q : Parser β} {f : α → Parser γ} {g : β → Parser δ}
    (h : Steady insertion R p q) (next : ∀ v w, R v w → Steady insertion S (f v) (g w))
    (keeps : ∀ w, Keeps (g w)) : Steady insertion S (p >>= f) (q >>= g) := by
  intro s u s' ran
  obtain ⟨v, s1, first, second⟩ := run_bind_eq_ok.mp ran
  rcases h s v s1 first with followed | ⟨⟨w₀, related⟩, fresh, shorter, region, met, ahead, inserted⟩
  · exact followed.thenSteady fun w related => next v w related s1 u s' second
  · -- Behind the region the run meets no other.
    have quiet (w : β) (related : R v w) : Followed .wide 0 S (g w) s1 u s' := by
      rcases next v w related s1 u s' second with quiet | ⟨-, fresh', -⟩
      · exact quiet
      · rw [met] at fresh'
        cases fresh'
    have here := quiet w₀ related
    refine Or.inr ⟨here.related, fresh, here.length_le.trans_lt shorter, region,
      by rw [here.script_eq, met], ahead, fun t there => ?_⟩
    obtain ⟨finds, resumes⟩ := inserted t there
    constructor
    · intro w' t' ran'
      obtain ⟨b, t1, left, right⟩ := run_bind_eq_ok.mp ran'
      obtain ⟨other, met', raw⟩ := finds b t1 left
      exact ⟨other, by rw [keeps b t1 w' t' right (by rw [met']; rfl), met'], raw⟩
    · intro none isOpen
      obtain ⟨w, t1, left, agree, ⟨same, other, met', raw⟩⟩ := resumes none isOpen
      obtain ⟨w', t', right, agree', same', script⟩ := (quiet w agree).resumed same
      exact ⟨w', t', run_bind_eq_ok.mpr ⟨w, t1, left, right⟩, agree',
        ⟨same', other, by rw [script, met'], raw⟩⟩

/-- The same where the first parser never meets the region. -/
theorem Follows.thenSteady {p : Parser α} {q : Parser β} {f : α → Parser γ} {g : β → Parser δ}
    (h : Follows .wide n R p q) (next : ∀ v w, R v w → Steady insertion S (f v) (g w)) :
    Steady insertion S (p >>= f) (q >>= g) := by
  intro s u s' ran
  obtain ⟨v, s1, first, second⟩ := run_bind_eq_ok.mp ran
  exact (h s v s1 first).thenSteady fun w related => next v w related s1 u s' second

/-! The raw regions. -/

theorem follows_attributes :
    Follows .wide 0 (fun v w => AgreeAttributes v.1 w.1 ∧ v.2 = w.2) attributes attributes :=
  fun _ _ _ ran => (covered_attributes ran).followed

theorem follows_rawText (tag : String) (p q : Position) :
    Follows .tag 0 Eq (rawText tag p) (rawText tag q) := by
  refine follows_upTo ("</".toList ++ tag.toList) (by simp) _ _ _ fun data => ?_
  refine follows_skipBlanks.same fun _ => (follows_expectChar '>').same fun _ => ?_
  exact .pure rfl

theorem follows_style {levels : Nat} (inElement : Bool) (p q : Position) :
    Follows .wide 0 (Option.Rel (AgreeNode levels)) (rawRegion "style" p inElement)
      (rawRegion "style" q inElement) := by
  cases inElement with
  | true =>
    intro s v s' ran
    cases ran
  | false =>
    simp only [rawRegion, if_true, Bool.false_eq_true, if_false]
    refine follows_attributes.andThen fun found found' agree => follows_here.andThen fun _ _ _ => ?_
    have style (raw : String) : Option.Rel (AgreeNode levels) (some (.style p found.1 raw))
        (some (.style q found'.1 raw)) := by
      refine .some ⟨?_, trivial⟩
      rw [Node.unplaced, Node.unplaced, agreeAttributes_same agree.1]
    rw [agree.2]
    split_ifs
    · exact .pure (style "")
    · refine (follows_rawText _ p q).wide.same fun raw => ?_
      exact .pure (style raw)

/-- The body of a raw region, which is empty where the tag closes itself. -/
def rawBody (tag : String) (position : Position) (selfClosing : Bool) : Parser String :=
  if selfClosing then pure "" else rawText tag position

theorem rawRegion_script {inElement : Bool} {p : Position} {s s' : Source} {v : Option Node}
    (h : rawRegion "script" p inElement s = .ok (v, s')) :
    ∃ found s1 raw s2, attributes s = .ok (found, s1) ∧
      rawBody "script" p found.2 s1 = .ok (raw, s2) ∧ s2.script = none ∧
      v = none ∧ s' = { s2 with script := some ⟨p, found.1, s1.cursor.pos, raw⟩ } := by
  cases inElement with
  | true => cases h
  | false =>
    have noStyle : "script" ≠ "style" := by decide
    have last {raw : String} {found : List Attribute} {origin : Position} {s2 : Source}
        (ran : (do
          if "script" = "style" then return some (.style p found raw)
          if (← get).script.isSome then Parser.failAt .secondScript p
          modify fun s => { s with script := some ⟨p, found, origin, raw⟩ }
          return none : Parser (Option Node)) s2 = .ok (v, s')) :
        s2.script = none ∧ v = none ∧
          s' = { s2 with script := some ⟨p, found, origin, raw⟩ } := by
      rw [if_neg noStyle] at ran
      obtain ⟨cursor, script⟩ := s2
      cases script with
      | some region => cases ran
      | none =>
        cases ran
        exact ⟨rfl, rfl, rfl⟩
    rw [rawRegion, if_neg Bool.false_ne_true] at h
    obtain ⟨⟨found, selfClosing⟩, s1, first, rest⟩ := run_bind_eq_ok.mp h
    obtain ⟨origin, s1', place, body⟩ := run_bind_eq_ok.mp rest
    cases place
    dsimp only at body
    split_ifs at body with closes
    · obtain ⟨raw, s2, empty, final⟩ := run_bind_eq_ok.mp body
      exact ⟨_, _, raw, s2, first, by rw [rawBody, if_pos closes]; exact empty, last final⟩
    · obtain ⟨raw, s2, full, final⟩ := run_bind_eq_ok.mp body
      exact ⟨_, _, raw, s2, first, by rw [rawBody, if_neg closes]; exact full, last final⟩

theorem rawBody_script_eq {tag raw : String} {p : Position} {selfClosing : Bool} {s s' : Source}
    (h : rawBody tag p selfClosing s = .ok (raw, s')) : s'.script = s.script := by
  unfold rawBody at h
  split_ifs at h
  · cases h
    rfl
  · exact (follows_rawText tag p p s raw s' h).script_eq

theorem length_le_rawBody {tag raw : String} {p : Position} {selfClosing : Bool} {s s' : Source}
    (h : rawBody tag p selfClosing s = .ok (raw, s')) :
    s'.cursor.rest.length ≤ s.cursor.rest.length := by
  unfold rawBody at h
  split_ifs at h
  · cases h
    exact Nat.le_refl _
  · exact (follows_rawText tag p p s raw s' h).length_le

/-- No mark of a tag begins in the text. -/
def HasNoTag (text : List Char) : Prop := ∀ c ∈ text, '<' ≠ c.toLower

theorem distance?_append (noTag : HasNoTag insertion) (mark text : List Char) :
    distance? ('<' :: mark) (insertion ++ text) =
      (distance? ('<' :: mark) text).map (· + insertion.length) := by
  induction insertion with
  | nil =>
    rw [List.nil_append]
    cases distance? ('<' :: mark) text <;> rfl
  | cons c more ih =>
    have here := noTag c (by simp)
    rw [List.cons_append, distance?, if_neg (by simp [distance?.startsWith, here]),
      ih fun d member => noTag d (List.mem_cons_of_mem c member), Option.map_map]
    rfl

/-- What follows the body of a raw region does not depend on the body. -/
theorem follows_closing (m : Nat) (raw raw' : String) :
    Follows .tag 0 (fun v w => v = raw ∧ w = raw')
      (do skip m; skipBlanks; expectChar '>'; return raw)
      (do skip m; skipBlanks; expectChar '>'; return raw') := by
  refine (follows_skip m).same fun _ => follows_skipBlanks.same fun _ => ?_
  exact (follows_expectChar '>').same fun _ => .pure ⟨rfl, rfl⟩

/-- The body of a region with an insertion in front of it. -/
theorem rawText_inserted (noTag : HasNoTag insertion) {p q : Position} {raw : String}
    {s s' t : Source} (h : rawText "script" p s = .ok (raw, s'))
    (there : t.cursor.rest = insertion ++ s.cursor.rest) :
    ∃ t', rawText "script" q t = .ok (String.ofList (insertion ++ raw.toList), t') ∧
      t'.cursor.rest = s'.cursor.rest ∧ t'.script = t.script := by
  have mark : "</".toList ++ "script".toList = '<' :: "/script".toList := rfl
  rw [rawText, rest_bind, mark] at h
  cases found : distance? ('<' :: "/script".toList) s.cursor.rest with
  | none =>
    rw [found] at h
    cases h
  | some n =>
    rw [found] at h
    obtain ⟨data, s1, taken, rest⟩ := run_bind_eq_ok.mp h
    cases taken
    have left : (t.after (n + insertion.length)).cursor.rest = (s.after n).cursor.rest := by
      rw [Source.after_rest, Source.after_rest, there, Nat.add_comm, List.drop_length_add_append]
    have data : t.cursor.rest.take (n + insertion.length) = insertion ++ s.cursor.rest.take n := by
      rw [there, Nat.add_comm, List.take_length_add_append]
    obtain ⟨w, t', ran, ⟨rfl, rfl⟩, same, script⟩ := (follows_closing _ _
      (String.ofList (insertion ++ s.cursor.rest.take n)) _ _ _ rest).resumed left
    refine ⟨t', ?_, same, script⟩
    rw [rawText, rest_bind, mark, there, distance?_append noTag, found]
    refine run_bind_eq_ok.mpr ⟨_, t.after (n + insertion.length), rfl, ?_⟩
    have body : (String.ofList (s.cursor.rest.take n)).toList = s.cursor.rest.take n :=
      String.toList_ofList
    rw [data, body]
    exact ran

theorem rawRegion_eq_ok {p : Position} {s s1 s2 : Source} {found : List Attribute × Bool}
    {raw : String} (first : attributes s = .ok (found, s1))
    (body : rawBody "script" p found.2 s1 = .ok (raw, s2)) (fresh : s2.script = none) :
    rawRegion "script" p false s =
      .ok (none, { s2 with script := some ⟨p, found.1, s1.cursor.pos, raw⟩ }) := by
  rw [rawRegion, if_neg Bool.false_ne_true]
  refine run_bind_eq_ok.mpr ⟨found, s1, first, run_bind_eq_ok.mpr ⟨_, s1, rfl, ?_⟩⟩
  have last : (do
      if "script" = "style" then return some (.style p found.1 raw)
      if (← get).script.isSome then Parser.failAt .secondScript p
      modify fun s => { s with script := some ⟨p, found.1, s1.cursor.pos, raw⟩ }
      return none : Parser (Option Node)) s2 =
        .ok (none, { s2 with script := some ⟨p, found.1, s1.cursor.pos, raw⟩ }) := by
    rw [if_neg (by decide)]
    obtain ⟨cursor, script⟩ := s2
    obtain rfl : script = none := fresh
    rfl
  obtain ⟨attributes, selfClosing⟩ := found
  unfold rawBody at body
  cases selfClosing with
  | true => exact run_bind_eq_ok.mpr ⟨raw, s2, body, last⟩
  | false => exact run_bind_eq_ok.mpr ⟨raw, s2, body, last⟩

/-- Where the text does not end like a tag that closes itself, the tag of the region does not. -/
theorem selfClosing_of_isOpen {s : Source} {k : Nat} {found : List Attribute × Bool}
    (h : attributes s = .ok (found, s.after k)) (short : k ≤ s.cursor.rest.length)
    (isOpen : s.IsOpen (s.cursor.pos.offset + k)) : found.2 = false := by
  obtain ⟨found, selfClosing⟩ := found
  cases selfClosing with
  | false => rfl
  | true =>
    obtain ⟨j, within, same, closes⟩ := attributes_closed h
    obtain rfl : k = j := by
      rcases Source.eq_of_after_eq same with rfl | ⟨spent, spent'⟩
      · rfl
      · omega
    rw [Source.IsOpen, Nat.add_sub_cancel_left] at isOpen
    exact absurd closes isOpen

theorem rawRegion_inserted (noTag : HasNoTag insertion) {R : Option Node → Option Node → Prop}
    (related : R none none) {inElement : Bool} {p : Position} {s s' : Source} {v : Option Node}
    (h : rawRegion "script" p inElement s = .ok (v, s')) :
    v = none ∧ s.script = none ∧ s'.cursor.rest.length < s.cursor.rest.length ∧
      ∃ region, s'.script = some region ∧
        s.cursor.pos.offset + Lookahead.tag.reach s.cursor.rest ≤ region.origin.offset ∧
        region.origin.offset ≤ s.cursor.pos.offset + s.cursor.rest.length ∧
        ∀ t q, s.Inserted insertion region.origin.offset t →
          Carries insertion R (rawRegion "script" q inElement) s v s' region t := by
  cases inElement with
  | true => cases h
  | false =>
  obtain ⟨found, s1, raw, s2, first, body, fresh, rfl, rfl⟩ := rawRegion_script h
  obtain ⟨k, enough, short, rfl, follows⟩ := covered_attributes first
  have sees := Lookahead.tag.sees s.cursor.rest
  have place : (s.after k).cursor.pos.offset = s.cursor.pos.offset + k := by
    rw [Source.after_offset, Nat.min_eq_left short]
  have shorter : s2.cursor.rest.length < s.cursor.rest.length := by
    have taken := length_le_rawBody body
    rw [Source.after_rest, List.length_drop] at taken
    omega
  refine ⟨rfl, by rw [← fresh, rawBody_script_eq body]; rfl, shorter, _, rfl, by rw [place]; omega,
    by rw [place]; omega, ?_⟩
  intro t q inserted
  dsimp only at inserted
  rw [place] at inserted
  obtain ⟨found', again, agree⟩ := follows t (inserted.alike (Nat.le_refl _))
  obtain ⟨before, behind, here, there, none⟩ := inserted.after (Nat.le_refl _)
  obtain rfl : before = [] := List.length_eq_zero_iff.mp (by omega)
  rw [List.nil_append] at here there
  constructor
  · intro w t' ran
    obtain ⟨found'', t1, raw', t2, first', body', -, -, rfl⟩ := rawRegion_script ran
    refine ⟨_, rfl, ?_⟩
    rw [again] at first'
    cases first'
    unfold rawBody at body body'
    rw [agree.2] at body
    split_ifs at body body'
    · cases body'
      exact Or.inr rfl
    · obtain ⟨_, ran', -⟩ := rawText_inserted noTag body (there.trans (by rw [here]))
      rw [ran'] at body'
      cases body'
      exact Or.inl String.toList_ofList
  · intro fresh' isOpen
    dsimp only at isOpen
    rw [place] at isOpen
    have opens := selfClosing_of_isOpen first short isOpen
    rw [opens, rawBody, if_neg Bool.false_ne_true] at body
    obtain ⟨t2, ran, same, script⟩ :=
      @rawText_inserted insertion noTag p q _ _ _ _ body (there.trans (by rw [here]))
    have body' : rawBody "script" q found'.2 (t.after k) =
        .ok (String.ofList (insertion ++ raw.toList), t2) := by
      rw [← agree.2, opens, rawBody, if_neg Bool.false_ne_true]
      exact ran
    exact ⟨_, _, rawRegion_eq_ok again body' (script.trans fresh'), related,
      ⟨same, _, rfl, String.toList_ofList⟩⟩

end Parser

end Dashboard.Markup
