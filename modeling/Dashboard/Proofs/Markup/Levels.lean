import Dashboard.Proofs.Markup.Repeating

/-!
The productions of every level, and whole documents. A document without a script region is parsed alike
wherever it stands; with one, an insertion at the start of the region stands before its body.
-/
namespace Dashboard.Markup

open Dashboard.Markup.Parser

variable {insertion : List Char} {levels : Nat}

/-- The same children, one level further down. -/
def AgreeBelow (levels : Nat) (vs ws : List Node) : Prop :=
  ∃ inner, levels = inner + 1 ∧ AgreeNodes inner vs ws

/-- Related children with the same end. -/
abbrev AgreeChildren (R : List Node → List Node → Prop) (v w : List Node × Terminator) : Prop :=
  R v.1 w.1 ∧ SameEnd v.2 w.2

namespace Productions

theorem follows_closingTag : Follows .wide 0 SameEnd closingTag closingTag := by
  refine follows_here.andThen fun p q _ => (follows_skip 2).same fun _ => ?_
  refine (follows_name _).wide.same fun name => follows_skipBlanks.wide.same fun _ => ?_
  refine (follows_expectChar '>').same fun _ => ?_
  exact .pure (.closingTag name p q)

theorem follows_continuation : Follows .wide 0 SameEnd continuation continuation := by
  refine follows_here.andThen fun p q _ => follows_braced.andThen fun found other same => ?_
  obtain ⟨content, inside⟩ := found
  obtain ⟨content', inside'⟩ := other
  obtain rfl : content = content' := same
  dsimp only
  split_ifs
  · exact .pure (.otherwise p q)
  · exact .pure (.elseIf _ p q)
  · exact .failAt _ _ _

theorem follows_blockEnd : Follows .wide 0 SameEnd blockEnd blockEnd := by
  refine follows_here.andThen fun p q _ => follows_braced.andThen fun found other same => ?_
  obtain ⟨content, inside⟩ := found
  obtain ⟨content', inside'⟩ := other
  obtain rfl : content = content' := same
  dsimp only
  split_ifs
  · exact .pure (.endIf p q)
  · exact .failAt _ _ _

section Level

variable {deeper : Position → Bool → Parser (List Node × Terminator)}
variable {ifBlock : Bool → String → Position → Parser Node}

theorem steady_elementChildren
    (hd : ∀ p q e, Steady insertion (AgreeChildren (AgreeBelow levels)) (deeper p e) (deeper q e))
    (name : String) (p q : Position) :
    Steady insertion (AgreeBelow levels) (elementChildren deeper name p)
      (elementChildren deeper name q) := by
  refine (hd p q true).bind (fun v w agree => ?_) fun w => ?_
  · obtain ⟨children, ended⟩ := v
    obtain ⟨others, ended'⟩ := w
    obtain ⟨same, ends⟩ := agree
    cases ends with
    | closingTag closing place place' =>
      dsimp only
      split_ifs
      · exact (Follows.pure same).steady
      · exact .failAt _ _ _
    | _ => exact .failAt _ _ _
  · obtain ⟨children, ended⟩ := w
    cases ended with
    | closingTag closing place =>
      dsimp only
      split_ifs
      · exact .pure children
      · exact .throw _
    | _ => exact .throw _

/-- What follows the name of an element. -/
def afterName (deeper : Position → Bool → Parser (List Node × Terminator)) (inElement : Bool)
    (position : Position) (name : String) : Parser (Option Node) :=
  if name.toLower = "script" ∨ name.toLower = "style" then
    rawRegion name.toLower position inElement
  else do
    let (found, selfClosing) ← attributes
    let children ← if selfClosing then pure [] else elementChildren deeper name position
    return some (.element position name found children)

theorem element_run (inElement : Bool) (s : Source) :
    element deeper inElement s = name "tag name" (s.after 1) >>= fun found =>
      afterName deeper inElement s.cursor.pos found.1 found.2 := rfl

/-- A tag that is not the tag of a script. -/
theorem steady_afterName
    (hd : ∀ p q e, Steady insertion (AgreeChildren (AgreeBelow levels)) (deeper p e) (deeper q e))
    (inElement : Bool) (p q : Position) {name : String}
    (named : ∀ c ∈ name.toList, isNameChar c = true) (noScript : name.toLower ≠ "script") :
    Steady insertion (Option.Rel (AgreeNode levels)) (afterName deeper inElement p name)
      (afterName deeper inElement q name) := by
  unfold afterName
  by_cases style : name.toLower = "style"
  · rw [if_pos (Or.inr style), if_pos (Or.inr style), style]
    exact (follows_style inElement p q).steady
  · have ordinary : ¬ (name.toLower = "script" ∨ name.toLower = "style") := by simp [noScript, style]
    rw [if_neg ordinary, if_neg ordinary]
    refine follows_attributes.thenSteady fun found found' agree => ?_
    obtain ⟨attributes, selfClosing⟩ := found
    obtain ⟨attributes', selfClosing'⟩ := found'
    obtain ⟨agree, same⟩ := agree
    dsimp only at same agree ⊢
    subst same
    split_ifs
    · exact (Follows.pure (.some (AgreeNode.element named agree (Or.inl ⟨rfl, rfl⟩)))).steady
    · refine (steady_elementChildren hd name p q).map fun children children' below => ?_
      exact .some (AgreeNode.element named agree (Or.inr below))

theorem name_length {what text : String} {s s' : Source} (h : name what s = .ok (text, s')) :
    ∃ k, text.length ≤ k ∧ s' = s.after k ∧ k ≤ s.cursor.rest.length := by
  obtain ⟨found, s1, taken, rest⟩ := run_bind_eq_ok.mp h
  cases taken
  split_ifs at rest
  · cases rest
  · cases rest
    refine ⟨_, ?_, rfl, (List.takeWhile_prefix _).length_le⟩
    show (String.ofList (s.cursor.rest.take _)).length ≤ _
    rw [String.length_ofList, List.length_take]
    exact Nat.min_le_left _ _

theorem isNameChar_of_name {what text : String} {s s' : Source} (h : name what s = .ok (text, s')) :
    ∀ c ∈ text.toList, isNameChar c = true := by
  obtain ⟨found, s1, taken, rest⟩ := run_bind_eq_ok.mp h
  cases taken
  split_ifs at rest
  · cases rest
  · cases rest
    show ∀ c ∈ (String.ofList (s.cursor.rest.take (s.cursor.rest.takeWhile _).length)).toList, _
    rw [String.toList_ofList, ← List.prefix_iff_eq_take.mp (List.takeWhile_prefix _)]
    exact fun c => List.mem_takeWhile_imp

theorem afterName_script (inElement : Bool) (p : Position) {name : String}
    (script : name.toLower = "script") :
    afterName deeper inElement p name = rawRegion "script" p inElement := by
  rw [afterName, if_pos (Or.inl script), script]

theorem length_of_toLower_eq_script {name : String} (script : name.toLower = "script") :
    name.length = 6 := by
  have lengths : name.toLower.length = 6 := by rw [script]; rfl
  rwa [show name.toLower = name.map Char.toLower from rfl, String.length_map] at lengths

/-- The tag of a script opens the region of the document. -/
theorem introduces_script (noTag : HasNoTag insertion) {inElement : Bool} {name : String}
    {s s2 s' : Source} {v : Option Node}
    (named : Parser.name "tag name" (s.after 1) = .ok (name, s2))
    (script : name.toLower = "script")
    (tail : afterName deeper inElement s.cursor.pos name s2 = .ok (v, s')) :
    Introduces insertion (Option.Rel (AgreeNode levels)) (element deeper inElement) s v s' := by
  have follows := follows_name _ _ _ _ named
  rw [afterName_script inElement _ script] at tail
  obtain ⟨rfl, fresh, shorter, region, met, early, late, inserted⟩ :=
    @rawRegion_inserted _ noTag (Option.Rel (AgreeNode levels)) .none _ _ _ _ _ tail
  obtain ⟨k, long, rfl, short⟩ := name_length named
  have six := length_of_toLower_eq_script script
  have sees := Lookahead.tag.sees ((s.after 1).after k).cursor.rest
  rw [Source.after_rest, List.length_drop] at short
  rw [Source.after_offset, Source.after_offset, Source.after_rest, List.length_drop] at early late
  rw [Source.after_rest, Source.after_rest, List.length_drop, List.length_drop] at late shorter
  have ahead : s.Ahead region.origin.offset := ⟨by omega, by omega⟩
  refine ⟨⟨none, .none⟩, fresh, by omega, region, met, ahead, fun t there => ?_⟩
  obtain ⟨j, -, same, again⟩ := follows
  -- The tag does not end the text, so that it is known how much of it the name takes.
  obtain rfl : k = j := by
    rcases Source.eq_of_after_eq same with rfl | ⟨spent, -⟩
    · rfl
    · rw [Source.after_rest, List.length_drop] at spent
      omega
  have start := there.after (n := 1) (by omega)
  rw [Source.after_rest, Source.after_rest] at early
  have seen : (s.after 1).cursor.pos.offset +
      (k + Lookahead.tag.reach ((s.after 1).cursor.rest.drop k)) ≤ region.origin.offset := by
    rw [Source.after_offset, Source.after_rest]
    omega
  obtain ⟨_, ok, rfl⟩ := again (t.after 1) (start.alike seen)
  obtain ⟨finds, resumes⟩ := inserted _ t.cursor.pos (start.after (by omega))
  have parses : element deeper inElement t =
      rawRegion "script" t.cursor.pos inElement ((t.after 1).after k) := by
    rw [element_run, ok, ← afterName_script inElement _ script]
    rfl
  constructor
  · intro w t' ran'
    rw [parses] at ran'
    exact finds w t' ran'
  · intro none isOpen
    have behind : ((s.after 1).after k).IsOpen region.origin.offset := by
      rw [← s.after_add]
      exact isOpen.after (by omega)
    obtain ⟨w, t', ran', agree, same⟩ := resumes none behind
    exact ⟨w, t', parses.trans ran', agree, same⟩

theorem steady_element (noTag : HasNoTag insertion)
    (hd : ∀ p q e, Steady insertion (AgreeChildren (AgreeBelow levels)) (deeper p e) (deeper q e))
    (inElement : Bool) :
    Steady insertion (Option.Rel (AgreeNode levels)) (element deeper inElement)
      (element deeper inElement) := by
  intro s v s' ran
  rw [element_run] at ran
  obtain ⟨⟨name, s2⟩, named, tail⟩ := bind_eq_ok.mp ran
  by_cases script : name.toLower = "script"
  · exact Or.inr (introduces_script noTag named script tail)
  · refine Followed.thenSteady (follows_here s _ _ rfl) fun q _ => ?_
    refine Followed.thenSteady (follows_skip 1 s () (s.after 1) rfl) fun _ _ => ?_
    refine Followed.thenSteady ((follows_name _).wide _ _ _ named) fun other same => ?_
    subst same
    exact steady_afterName hd inElement _ q (isNameChar_of_name named) script _ v s' tail

theorem steady_openBlock
    (hi : ∀ e condition p q, Steady insertion (AgreeNode levels) (ifBlock e condition p)
      (ifBlock e condition q)) (inElement : Bool) :
    Steady insertion (AgreeNode levels) (openBlock ifBlock inElement)
      (openBlock ifBlock inElement) := by
  refine follows_here.thenSteady fun p q _ => (follows_braced).thenSteady fun found other same => ?_
  obtain ⟨content, inside⟩ := found
  obtain ⟨content', inside'⟩ := other
  obtain rfl : content = content' := same
  dsimp only
  split_ifs
  · exact hi _ _ _ _
  · exact .failAt _ _ _

variable (deeper ifBlock) in
/-- One step, given the text ahead and the parser for what is no tag and stands in no braces. -/
def stepAt (reading : Parser Node) (inElement : Bool) :
    List Char → Parser (Option Node ⊕ Terminator)
  | [] => return .inr .endOfText
  | '<' :: '!' :: '-' :: '-' :: _ => return .inl (some (← comment))
  | '<' :: '/' :: _ => return .inr (← closingTag)
  | '\x7b' :: '#' :: _ => return .inl (some (← openBlock ifBlock inElement))
  | '\x7b' :: ':' :: _ => return .inr (← continuation)
  | '\x7b' :: '/' :: _ => return .inr (← blockEnd)
  | '\x7b' :: '@' :: _ => Parser.fail .specialTag
  | '\x7b' :: _ => return .inl (some (.mustache (← mustache)))
  | '<' :: c :: _ =>
    if Text.isAsciiLetter c then return .inl (← element deeper inElement)
    else return .inl (some (← reading))
  | _ => return .inl (some (← reading))

theorem step_run (inElement : Bool) (s : Source) :
    step deeper ifBlock inElement s = stepAt deeper ifBlock Parser.text inElement s.cursor.rest s := rfl

theorem stepAt_mark (reading : Parser Node) (inElement : Bool) {text other : List Char} (h : Alike 2 text other) :
    stepAt deeper ifBlock reading inElement ('<' :: '!' :: other) =
      stepAt deeper ifBlock reading inElement ('<' :: '!' :: text) := by
  cases text with
  | nil => rw [h.nil]
  | cons c more =>
    obtain ⟨rest, rfl, same⟩ := h.cons
    by_cases first : c = '-'
    · subst first
      cases more with
      | nil => rw [same.nil]
      | cons d more =>
        obtain ⟨rest, rfl, -⟩ := same.cons
        by_cases second : d = '-'
        · subst second
          rfl
        · simp [stepAt, second]
    · simp [stepAt, first]

theorem stepAt_alike (reading : Parser Node) (inElement : Bool) {text other : List Char} (h : Alike 4 text other) :
    stepAt deeper ifBlock reading inElement other = stepAt deeper ifBlock reading inElement text := by
  cases text with
  | nil => rw [h.nil]
  | cons c more =>
    obtain ⟨_, rfl, same⟩ := h.cons
    by_cases tag : c = '<'
    · subst tag
      cases more with
      | nil => rw [same.nil]
      | cons d more =>
        obtain ⟨_, rfl, behind⟩ := same.cons
        by_cases mark : d = '!'
        · subst mark
          exact stepAt_mark reading inElement behind
        by_cases closing : d = '/'
        · subst closing
          rfl
        simp [stepAt, mark]
    by_cases brace : c = '\x7b'
    · subst brace
      cases more with
      | nil => rw [same.nil]
      | cons d more =>
        obtain ⟨_, rfl, -⟩ := same.cons
        by_cases opening : d = '#'
        · subst opening
          rfl
        by_cases continued : d = ':'
        · subst continued
          rfl
        by_cases closing : d = '/'
        · subst closing
          rfl
        by_cases special : d = '@'
        · subst special
          rfl
        simp [stepAt, opening, continued, closing, special]
    simp [stepAt, tag, brace]

/-- The same child, or the same end. -/
abbrev AgreeStep (levels : Nat) : Option Node ⊕ Terminator → Option Node ⊕ Terminator → Prop :=
  Sum.LiftRel (Option.Rel (AgreeNode levels)) SameEnd

theorem steady_stepAt (noTag : HasNoTag insertion)
    (hd : ∀ p q e, Steady insertion (AgreeChildren (AgreeBelow levels)) (deeper p e) (deeper q e))
    (hi : ∀ e condition p q, Steady insertion (AgreeNode levels) (ifBlock e condition p)
      (ifBlock e condition q)) (inElement : Bool) (text : List Char) :
    Steady insertion (AgreeStep levels) (stepAt deeper ifBlock Parser.text inElement text)
      (stepAt deeper ifBlock Parser.text inElement text) := by
  have reading : Follows .wide 0 (AgreeStep levels) (do return .inl (some (← Parser.text)))
      (do return .inl (some (← Parser.text))) := follows_text.map fun _ _ agree => .inl (.some agree)
  unfold stepAt
  split
  · exact (Follows.pure (.inr .endOfText)).steady
  · exact (follows_comment.map fun _ _ agree => .inl (.some agree)).steady
  · exact (follows_closingTag.map fun _ _ same => .inr same).steady
  · exact (steady_openBlock hi inElement).map fun _ _ agree => .inl (.some agree)
  · exact (follows_continuation.map fun _ _ same => .inr same).steady
  · exact (follows_blockEnd.map fun _ _ same => .inr same).steady
  · exact (@Follows.fail 0 _ _ _ _ _ _).steady
  · refine (follows_mustache.map fun v w agree => .inl (.some ⟨?_, agree.sound⟩)).steady
    rw [Node.unplaced, Node.unplaced, agree.same]
  · split_ifs
    · exact (steady_element noTag hd inElement).map fun _ _ agree => .inl agree
    · exact reading.steady
  · exact reading.steady

theorem steady_step (noTag : HasNoTag insertion)
    (hd : ∀ p q e, Steady insertion (AgreeChildren (AgreeBelow levels)) (deeper p e) (deeper q e))
    (hi : ∀ e condition p q, Steady insertion (AgreeNode levels) (ifBlock e condition p)
      (ifBlock e condition q)) (inElement : Bool) :
    Steady insertion (AgreeStep levels) (step deeper ifBlock inElement)
      (step deeper ifBlock inElement) := by
  intro s v s' ran
  rw [step_run] at ran
  rcases steady_stepAt noTag hd hi inElement _ s v s' ran with
    ⟨k, least, rfl, follows⟩ | ⟨result, fresh, shorter, region, met, ahead, there⟩
  · refine Or.inl ⟨k, least, rfl, fun t alike => ?_⟩
    have four : Lookahead.wide.reach (s.cursor.rest.drop k) = 4 := rfl
    rw [step_run, stepAt_alike _ inElement (alike.mono (by omega))]
    exact follows t alike
  · refine Or.inr ⟨result, fresh, shorter, region, met, ahead, fun t inserted => ?_⟩
    have same := @stepAt_alike deeper ifBlock Parser.text inElement _ _ (inserted.alike ahead.beyond)
    obtain ⟨finds, resumes⟩ := there t inserted
    constructor
    · rwa [step_run, same]
    · rwa [step_run, same]

theorem childrenUntil_eq (inElement : Bool) :
    childrenUntil deeper ifBlock inElement = (do
      let found ← repeated (step deeper ifBlock inElement) .endOfText
      return (found.1.flatMap Option.toList, found.2) : Parser (List Node × Terminator)) := by
  funext s
  induction n : s.cursor.rest.length using Nat.strong_induction_on generalizing s with
  | _ n ih =>
    rw [childrenUntil, run_bind, repeated]
    split
    · next e failed =>
      simp only [failed]
      rfl
    · next ended t taken =>
      simp only [taken]
      rfl
    · next child t taken =>
      simp only [taken]
      split_ifs with shorter
      · rw [ih _ (n ▸ shorter) t rfl, run_bind]
        cases repeated (step deeper ifBlock inElement) .endOfText t <;> rfl
      · show _ = Except.ok (([child].flatMap Option.toList, Terminator.endOfText), t)
        simp

theorem agreeNodes_flatMap {vs ws : List (Option Node)}
    (h : List.Forall₂ (Option.Rel (AgreeNode levels)) vs ws) :
    AgreeNodes levels (vs.flatMap Option.toList) (ws.flatMap Option.toList) := by
  induction h with
  | nil => exact .nil levels
  | cons first _ ih =>
    rw [List.flatMap_cons, List.flatMap_cons]
    refine AgreeNodes.append ?_ ih
    cases first with
    | none => exact .nil levels
    | some agree => exact agree.single

theorem steady_childrenUntil (noTag : HasNoTag insertion)
    (hd : ∀ p q e, Steady insertion (AgreeChildren (AgreeBelow levels)) (deeper p e) (deeper q e))
    (hi : ∀ e condition p q, Steady insertion (AgreeNode levels) (ifBlock e condition p)
      (ifBlock e condition q)) (inElement : Bool) :
    Steady insertion (AgreeChildren (AgreeNodes levels)) (childrenUntil deeper ifBlock inElement)
      (childrenUntil deeper ifBlock inElement) := by
  have steps := steady_step noTag hd hi inElement
  rw [childrenUntil_eq]
  refine (steps.repeated steps.keeps .endOfText).map fun v w agree => ?_
  exact ⟨agreeNodes_flatMap agree.1, agree.2⟩

end Level

/-- The productions of a level are steady, and their trees have so many levels. -/
structure AreSteady (insertion : List Char) (levels : Nat) (inner : Productions) : Prop where
  children : ∀ e, Steady insertion (AgreeChildren (AgreeNodes levels)) (inner.children e)
    (inner.children e)
  ifBlock : ∀ e condition p q, Steady insertion (AgreeNode levels) (inner.ifBlock e condition p)
    (inner.ifBlock e condition q)

variable {inner : Productions}

/-- What follows the children of a block. -/
def afterChildren (inner : Productions) (inElement : Bool) (condition : String)
    (position : Position) (test : Script.Node) (found : List Node × Terminator) : Parser Node :=
  match found.2 with
  | .endIf _ => return .ifBlock position condition test found.1 .absent
  | .otherwise place => do
    match ← inner.children inElement with
    | (others, .endIf _) =>
      return .ifBlock position condition test found.1 (.otherwise place others)
    | (_, terminator) => throw (misplaced position terminator)
  | .elseIf next place => do
    let block ← inner.ifBlock inElement next place
    return .ifBlock position condition test found.1 (.elseIf place block)
  | terminator => throw (misplaced position terminator)

theorem branches_eq (inElement : Bool) {condition : String} (written : condition.isEmpty = false)
    (position : Position) :
    branches inner inElement condition position = (do
      let test ← liftExpression condition position
      afterChildren inner inElement condition position test (← inner.children inElement)) := by
  simp only [branches, written, Bool.false_eq_true, if_false]
  refine congrArg _ (funext fun test => congrArg _ (funext fun found => ?_))
  obtain ⟨children, ended⟩ := found
  cases ended <;> rfl

theorem keeps_afterChildren (h : AreSteady insertion levels inner) (inElement : Bool)
    (condition : String) (p : Position) (test : Script.Node) (found : List Node × Terminator) :
    Keeps (afterChildren inner inElement condition p test found) := by
  obtain ⟨children, ended⟩ := found
  cases ended with
  | endIf => exact .pure _
  | otherwise place =>
    refine (h.children inElement).keeps.bind fun found => ?_
    obtain ⟨others, ended⟩ := found
    cases ended with
    | endIf => exact .pure _
    | _ => exact .throw _
  | elseIf next place => exact (h.ifBlock inElement next place place).keeps.map _
  | _ => exact .throw _

theorem steady_afterChildren (h : AreSteady insertion levels inner) (inElement : Bool)
    {condition : String} (p q : Position) {test test' : Script.Node}
    (tests : Agree Script.Node.unplaced (IsRead condition) test test')
    {found found' : List Node × Terminator} (agree : AgreeChildren (AgreeNodes levels) found found') :
    Steady insertion (AgreeNode (levels + 1)) (afterChildren inner inElement condition p test found)
      (afterChildren inner inElement condition q test' found') := by
  obtain ⟨children, ended⟩ := found
  obtain ⟨children', ended'⟩ := found'
  obtain ⟨same, ends⟩ := agree
  cases ends with
  | endIf => exact (Follows.pure (.ifBlock tests same ⟨rfl, trivial⟩)).steady
  | otherwise place place' =>
    refine (h.children inElement).bind (fun v w rest => ?_) fun w => ?_
    · obtain ⟨others, ended⟩ := v
      obtain ⟨others', ended'⟩ := w
      obtain ⟨agree, ends⟩ := rest
      cases ends with
      | endIf =>
        refine (Follows.pure (.ifBlock tests same ⟨?_, agree.sound⟩)).steady
        rw [Alternative.unplaced, Alternative.unplaced, agree.same]
      | _ => exact .throw _ _
    · obtain ⟨others, ended⟩ := w
      cases ended with
      | endIf => exact .pure _
      | _ => exact .throw _
  | elseIf next place place' =>
    refine (h.ifBlock inElement next place place').map fun block block' agree => ?_
    refine .ifBlock tests same ⟨?_, agree.sound⟩
    rw [Alternative.unplaced, Alternative.unplaced, agree.same]
  | _ => exact .throw _ _

theorem steady_branches (h : AreSteady insertion levels inner) (inElement : Bool)
    (condition : String) (p q : Position) :
    Steady insertion (AgreeNode (levels + 1)) (branches inner inElement condition p)
      (branches inner inElement condition q) := by
  cases written : condition.isEmpty with
  | true =>
    intro s v s' ran
    simp only [branches, written, if_true] at ran
    cases ran
  | false =>
    rw [branches_eq inElement written, branches_eq inElement written]
    refine (follows_liftExpression condition p q).thenSteady fun test test' tests => ?_
    obtain ⟨same, plain, place, parsed⟩ := tests
    have read : Agree Script.Node.unplaced (IsRead condition) test test' :=
      ⟨same, plain, condition, place, rfl, parsed⟩
    exact (h.children inElement).bind
      (fun found found' agree => steady_afterChildren h inElement p q read agree)
      (keeps_afterChildren h inElement condition q test')

theorem areSteady_atLevel (noTag : HasNoTag insertion) (levels : Nat) :
    AreSteady insertion levels (atLevel levels) := by
  induction levels with
  | zero =>
    constructor
    · refine steady_childrenUntil noTag (fun p q e => ?_) fun e condition p q => ?_
      · exact .failAt _ _ _
      · exact .failAt _ _ _
    · intro e condition p q
      exact .failAt _ _ _
  | succ levels ih =>
    have below (e : Bool) : Steady insertion (AgreeChildren (AgreeBelow (levels + 1)))
        ((atLevel levels).children e) ((atLevel levels).children e) := by
      intro s v s' ran
      rcases ih.children e s v s' ran with ⟨k, least, same, follows⟩ | meets
      · refine Or.inl ⟨k, least, same, fun t alike => ?_⟩
        obtain ⟨w, again, agree, ends⟩ := follows t alike
        exact ⟨w, again, ⟨levels, rfl, agree⟩, ends⟩
      · exact Or.inr (meets.mono fun w agree => ⟨⟨levels, rfl, agree.1⟩, agree.2⟩)
    exact ⟨steady_childrenUntil noTag (fun p q e => below e) (steady_branches ih),
      steady_branches ih⟩

end Productions

end Dashboard.Markup
