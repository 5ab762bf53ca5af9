import Dashboard.Proofs.Markup.Taking

/-!
Why the parser of documents ends. Its loops over attributes and over children are guarded: a round that
takes nothing ends them. Without the guards they come to the same, in no more rounds than there are
characters and one, if every declaration is a comment. For where no tag, brace or comment begins, text does,
and text goes on to the next place where one of them may begin.
-/
namespace Dashboard.Markup

open Dashboard.Markup.Parser

/-- Every mark of a declaration begins a comment. -/
def MarksComments (text : List Char) : Prop :=
  ∀ behind, behind <:+ text → "<!".toList <+: behind → "<!--".toList <+: behind

instance (text : List Char) : Decidable (MarksComments text) :=
  decidable_of_iff (∀ behind ∈ text.tails, "<!".toList <+: behind → "<!--".toList <+: behind) <| by
    simp only [MarksComments, List.mem_tails]

theorem MarksComments.suffix {text behind : List Char} (h : MarksComments text)
    (suffix : behind <:+ text) : MarksComments behind :=
  fun more within => h more (within.trans suffix)

namespace Parser

variable {α β τ : Type}

/-- Text up to what ends it, if there is any. -/
def anyText : Parser Node := do
  let position ← here
  return .text position (← take (textLength (← rest)))

theorem anyText_eq {s : Source} (h : textLength s.cursor.rest ≠ 0) : anyText s = Parser.text s := by
  obtain ⟨n, length⟩ := Nat.exists_eq_succ_of_ne_zero h
  rw [text_eq_ok length, anyText, here_bind, rest_bind, length]
  rfl

/-- So many rounds of a loop that nothing but a round ends. Where they are used up stands anything. -/
def rounds (beyond : Parser (List α × τ)) (round : Parser (α ⊕ τ)) :
    Nat → Parser (List α × τ)
  | 0 => beyond
  | n + 1 => do
    match ← round with
    | .inr ended => return ([], ended)
    | .inl first =>
      let (more, ended) ← rounds beyond round n
      return (first :: more, ended)

/-- A loop whose rounds take characters ends by itself, before the rounds are used up. -/
theorem rounds_eq (Good : Source → Prop)
    (keeps : ∀ s t taken, Good s → s.Passed taken t → Good t)
    {round step : Parser (α ⊕ τ)} (same : ∀ s, Good s → round s = step s)
    (takes : Takes (fun v taken => v.elim (fun _ => taken ≠ []) fun _ => True) step)
    (beyond : Parser (List α × τ)) (last : τ) {n : Nat} {s : Source} (good : Good s)
    (enough : s.cursor.rest.length < n) :
    rounds beyond round n s = repeated step last s := by
  induction n generalizing s with
  | zero => omega
  | succ n ih =>
    rw [rounds, run_bind, same s good, repeated]
    cases ran : step s with
    | error e => rfl
    | ok found =>
      obtain ⟨first | ended, t⟩ := found
      · -- Fewer characters are left, and so there are still more rounds than characters.
        obtain ⟨taken, passed, some⟩ := takes s _ t ran
        have shorter := Source.Advanced.shorter ⟨taken, some, passed⟩
        have later := ih (keeps s t taken good passed) (by omega)
        simp only [ok_bind, if_pos shorter]
        rw [run_bind, later]
        cases repeated step last t <;> rfl
      · rfl

/-- The loop over attributes needs no guard. -/
theorem rounds_attributeStep (beyond : Parser (List Attribute × Bool)) {room : Nat} {s : Source}
    (enough : s.cursor.rest.length < room) : rounds beyond attributeStep room s = attributes s := by
  rw [attributes_eq]
  refine rounds_eq (fun _ => True) (fun _ _ _ _ _ => trivial) (fun _ _ => rfl) ?_ beyond false
    trivial enough
  exact takes_attributeStep.mono fun v taken some => by cases v <;> simp [some]

/-- Two parsers run alike in front of less than so much text whose declarations are comments. -/
def RunAlike (room : Nat) (p q : Parser α) : Prop :=
  ∀ s, MarksComments s.cursor.rest → s.cursor.rest.length < room → p s = q s

variable {room : Nat} {p q : Parser α} {f g : α → Parser β} {P : α → List Char → Prop}

theorem RunAlike.refl (p : Parser α) : RunAlike room p p := fun _ _ _ => rfl

theorem RunAlike.bind (h : RunAlike room p q) (takes : Takes P q)
    (next : ∀ v, RunAlike room (f v) (g v)) : RunAlike room (p >>= f) (q >>= g) := by
  intro s marks short
  rw [run_bind, run_bind, h s marks short]
  cases ran : q s with
  | error e => rfl
  | ok found =>
    obtain ⟨v, t⟩ := found
    obtain ⟨taken, passed, -⟩ := takes s v t ran
    exact next v t (marks.suffix passed.suffix) (passed.suffix.length_le.trans_lt short)

/-- The same in front of what both do then. -/
theorem RunAlike.first (h : RunAlike room p q) (f : α → Parser β) :
    RunAlike room (p >>= f) (q >>= f) := by
  intro s marks short
  rw [run_bind, run_bind, h s marks short]

/-- The same behind a parser that both run. -/
theorem RunAlike.behind (takes : Takes P p) (next : ∀ v, RunAlike room (f v) (g v)) :
    RunAlike room (p >>= f) (p >>= g) := (RunAlike.refl p).bind takes next

theorem RunAlike.here {f g : Position → Parser β} (next : ∀ v, RunAlike room (f v) (g v)) :
    RunAlike room (here >>= f) (here >>= g) :=
  fun s marks short => next s.cursor.pos s marks short

end Parser

namespace Productions

section Level

variable {room : Nat} {deeper deeper' : Position → Bool → Parser (List Node × Terminator)}
variable {ifBlock ifBlock' : Bool → String → Position → Parser Node}

theorem runAlike_element (hd : ∀ p e, RunAlike room (deeper p e) (deeper' p e)) (inElement : Bool) :
    RunAlike room (element deeper inElement) (element deeper' inElement) := by
  refine .here fun position => .behind (takes_skip 1) fun _ => .behind (takes_name _) fun name => ?_
  dsimp only
  split_ifs
  · exact .refl _
  · refine .behind takes_attributes fun v => ?_
    obtain ⟨found, selfClosing⟩ := v
    dsimp only
    split_ifs
    · exact .refl _
    · have inside : RunAlike room (elementChildren deeper name position)
          (elementChildren deeper' name position) := (hd position true).first _
      exact inside.first _

theorem runAlike_openBlock
    (hi : ∀ e condition p, RunAlike room (ifBlock e condition p) (ifBlock' e condition p))
    (inElement : Bool) :
    RunAlike room (openBlock ifBlock inElement) (openBlock ifBlock' inElement) := by
  refine .here fun position => .behind takes_braced fun v => ?_
  obtain ⟨content, inside⟩ := v
  dsimp only
  split_ifs
  · exact hi _ _ _
  · exact .refl _

variable (deeper ifBlock) in
/-- A round of the loop over children, as it is without a guard: what is read where nothing else begins
may be an empty text. -/
def unguardedStep (inElement : Bool) : Parser (Option Node ⊕ Terminator) := do
  stepAt deeper ifBlock anyText inElement (← rest)

/-- Where no tag, brace or comment begins, text does. -/
theorem textLength_ne_zero {text : List Char} (marks : MarksComments text) (some : text ≠ [])
    (noBrace : ∀ more, text ≠ '\x7b' :: more)
    (noComment : ∀ more, text ≠ '<' :: '!' :: '-' :: '-' :: more)
    (noClosing : ∀ more, text ≠ '<' :: '/' :: more)
    (noTag : ∀ c more, text = '<' :: c :: more → Text.isAsciiLetter c = false) :
    textLength text ≠ 0 := by
  cases text with
  | nil => exact absurd rfl some
  | cons c more =>
    have goesOn : ¬ (c = '\x7b' ∨ (c = '<' ∧ more.head?.any isTagStart = true)) := by
      rintro (rfl | ⟨rfl, start⟩)
      · exact noBrace more rfl
      · cases more with
        | nil => cases start
        | cons d more =>
          have start : isTagStart d = true := start
          simp only [isTagStart, noTag d more rfl, Bool.false_or, Bool.or_eq_true,
            decide_eq_true_eq] at start
          rcases start with rfl | rfl
          · exact noClosing more rfl
          · obtain ⟨tail, same⟩ := marks _ List.suffix_rfl ⟨more, rfl⟩
            exact noComment tail same.symm
    rw [textLength, if_neg goesOn]
    exact Nat.succ_ne_zero _

/-- A round takes the same step as with a guard, as long as the productions below run alike. -/
theorem runAlike_unguardedStep (hd : ∀ p e, RunAlike room (deeper p e) (deeper' p e))
    (hi : ∀ e condition p, RunAlike room (ifBlock e condition p) (ifBlock' e condition p))
    (inElement : Bool) :
    RunAlike room (unguardedStep deeper ifBlock inElement) (step deeper' ifBlock' inElement) := by
  intro s marks short
  rw [unguardedStep, rest_bind, step_run]
  have reads (h : textLength s.cursor.rest ≠ 0) :
      (do return .inl (some (← anyText)) : Parser (Option Node ⊕ Terminator)) s =
        (do return .inl (some (← Parser.text)) : Parser (Option Node ⊕ Terminator)) s := by
    rw [run_bind, run_bind, anyText_eq h]
  generalize ahead : s.cursor.rest = text at reads
  unfold stepAt
  split
  · rfl
  · rfl
  · rfl
  · exact (runAlike_openBlock hi inElement).first _ s marks short
  · rfl
  · rfl
  · rfl
  · rfl
  · next c more noComment noClosing =>
    split_ifs with letter
    · exact (runAlike_element hd inElement).first _ s marks short
    · refine reads (textLength_ne_zero (ahead ▸ marks) nofun nofun ?_ ?_ ?_)
      · rintro tail ⟨⟩
        exact noComment tail rfl rfl
      · rintro tail ⟨⟩
        exact noClosing rfl
      · rintro d tail ⟨⟩
        simpa using letter
  · next some noComment noClosing _ _ _ _ noBrace noTag =>
    refine reads (textLength_ne_zero (ahead ▸ marks) some ?_ noComment noClosing ?_)
    · exact noBrace
    · exact fun c tail same => absurd same (noTag c tail)

end Level

/-! The levels, with and without guards. -/

/-- The children of an element where `inner` is left below it, if any level is. -/
def insideOf : (inner : Option Productions) → Position → Bool → Parser (List Node × Terminator)
  | none, position, _ => failAt .nestingTooDeep position
  | some inner, _, inElement => inner.children inElement

def blockOf : (inner : Option Productions) → Bool → String → Position → Parser Node
  | none, _, _, position => failAt .nestingTooDeep position
  | some inner, inElement, condition, position => branches inner inElement condition position

/-- What is left below a level. -/
def below : Nat → Option Productions
  | 0 => none
  | levels + 1 => some (atLevel levels)

theorem atLevel_eq (levels : Nat) : atLevel levels =
    { children := childrenUntil (insideOf (below levels)) (blockOf (below levels))
      ifBlock := blockOf (below levels) } := by
  cases levels <;> rfl

/-- The productions above `inner` without guards, with so many rounds for each loop over children. -/
def unguarded (beyond : Parser (List (Option Node) × Terminator)) (room : Nat)
    (inner : Option Productions) : Productions where
  children inElement := do
    let found ← rounds beyond (unguardedStep (insideOf inner) (blockOf inner) inElement) room
    return (found.1.flatMap Option.toList, found.2)
  ifBlock := blockOf inner

/-- What is left below a level, without guards on any of the levels. -/
def unguardedBelow (beyond : Parser (List (Option Node) × Terminator)) (room : Nat) :
    Nat → Option Productions
  | 0 => none
  | levels + 1 => some (unguarded beyond room (unguardedBelow beyond room levels))

theorem takes_insideOf (levels : Nat) (position : Position) (inElement : Bool) :
    TakesChildren (insideOf (below levels) position inElement) := by
  cases levels with
  | zero => exact .failAt _ _
  | succ levels => exact (takeTrees_atLevel levels).children inElement

theorem takes_blockOf (levels : Nat) (inElement : Bool) (condition : String) (position : Position) :
    TakesChild (blockOf (below levels) inElement condition position) := by
  cases levels with
  | zero => exact .failAt _ _
  | succ levels => exact takes_branches (takeTrees_atLevel levels) inElement condition position

/-- Both productions of two levels run alike. -/
structure AllAlike (room : Nat) (p q : Productions) : Prop where
  children : ∀ e, RunAlike room (p.children e) (q.children e)
  ifBlock : ∀ e condition position, RunAlike room (p.ifBlock e condition position)
    (q.ifBlock e condition position)

/-- What two levels find below them runs alike. -/
structure AlikeBelow (room : Nat) (inner inner' : Option Productions) : Prop where
  inside : ∀ position e, RunAlike room (insideOf inner position e) (insideOf inner' position e)
  block : ∀ e condition position, RunAlike room (blockOf inner e condition position)
    (blockOf inner' e condition position)

section Alike

variable {room : Nat}

theorem runAlike_branches {inner inner' : Productions} (h : AllAlike room inner inner')
    (takes : inner'.TakeTrees) (inElement : Bool) (condition : String) (position : Position) :
    RunAlike room (branches inner inElement condition position)
      (branches inner' inElement condition position) := by
  cases written : condition.isEmpty with
  | true =>
    simp only [branches, written, if_true]
    exact .refl _
  | false =>
    rw [branches_eq inElement written, branches_eq inElement written]
    refine .behind (takes_liftExpression _ _) fun test => ?_
    refine (h.children inElement).bind (takes.children inElement) fun found => ?_
    obtain ⟨children, ended⟩ := found
    cases ended with
    | otherwise place => exact (h.children inElement).first _
    | elseIf next place => exact (h.ifBlock inElement next place).first _
    | _ => exact .refl _

theorem allAlike_unguarded (beyond : Parser (List (Option Node) × Terminator)) (levels : Nat)
    {inner : Option Productions} (h : AlikeBelow room inner (below levels)) :
    AllAlike room (unguarded beyond room inner) (atLevel levels) := by
  rw [atLevel_eq]
  refine ⟨fun inElement s marks short => ?_, h.block⟩
  have takes := takes_step (takes_insideOf levels) (takes_blockOf levels) inElement
  have loop := rounds_eq (fun t => MarksComments t.cursor.rest ∧ t.cursor.rest.length < room)
    (fun t u taken good passed =>
      ⟨good.1.suffix passed.suffix, passed.suffix.length_le.trans_lt good.2⟩)
    (fun t good => runAlike_unguardedStep h.inside h.block inElement t good.1 good.2)
    (takes.mono fun v taken result => by
      cases v with
      | inl => exact result.1
      | inr => trivial)
    beyond .endOfText ⟨marks, short⟩ short
  show (unguarded beyond room inner).children inElement s = childrenUntil _ _ inElement s
  rw [childrenUntil_eq]
  dsimp only [unguarded]
  rw [run_bind, run_bind, loop]

/-- Without guards every level finds below it what it finds with them. -/
theorem alikeBelow (beyond : Parser (List (Option Node) × Terminator)) (room levels : Nat) :
    AlikeBelow room (unguardedBelow beyond room levels) (below levels) := by
  induction levels with
  | zero => exact ⟨fun _ _ => .refl _, fun _ _ _ => .refl _⟩
  | succ levels ih =>
    have above := allAlike_unguarded beyond levels ih
    exact ⟨fun _ => above.children, runAlike_branches above (takeTrees_atLevel levels)⟩

end Alike

/-- From `s` on, a round of the loop over children either ends it or takes a character when it succeeds,
and so does every production that is entered there. -/
structure Progresses (inner : Option Productions) (inElement : Bool) (s : Source) : Prop where
  step : ∀ child t, unguardedStep (insideOf inner) (blockOf inner) inElement s = .ok (.inl child, t) →
    s.Advanced t
  element : ∀ found t, element (insideOf inner) inElement s = .ok (found, t) → s.Advanced t
  openBlock : ∀ node t, openBlock (blockOf inner) inElement s = .ok (node, t) → s.Advanced t
  block : ∀ condition position node t,
    blockOf inner inElement condition position s = .ok (node, t) → s.Advanced t
  rawRegion : ∀ tag position found t,
    rawRegion tag position inElement s = .ok (found, t) → s.Advanced t
  singleAttribute : ∀ a t, singleAttribute s = .ok (a, t) → s.Advanced t

theorem progresses_unguardedBelow (beyond : Parser (List (Option Node) × Terminator)) {room : Nat}
    (levels : Nat) (inElement : Bool) {s : Source} (marks : MarksComments s.cursor.rest)
    (short : s.cursor.rest.length < room) :
    Progresses (unguardedBelow beyond room levels) inElement s := by
  have inside := takes_insideOf levels
  have block := takes_blockOf levels
  have alike := alikeBelow beyond room levels
  constructor
  · intro child t ran
    rw [runAlike_unguardedStep alike.inside alike.block inElement s marks short] at ran
    obtain ⟨taken, passed, some, -⟩ := takes_step inside block inElement s _ t ran
    exact ⟨taken, some, passed⟩
  · intro found t ran
    rw [runAlike_element alike.inside inElement s marks short] at ran
    exact (takes_element inside inElement).advances (fun _ _ => And.left) s found t ran
  · intro node t ran
    rw [runAlike_openBlock alike.block inElement s marks short] at ran
    exact (takes_openBlock block inElement).advances (fun _ _ => And.left) s node t ran
  · intro condition position node t ran
    rw [alike.block inElement condition position s marks short] at ran
    exact (block inElement condition position).advances (fun _ _ => And.left) s node t ran
  · exact fun tag position => (takes_rawRegion tag position inElement).advances (fun _ _ => And.left) s
  · exact takes_singleAttribute.advances (fun _ _ => id) s

end Productions

open Dashboard.Markup.Productions

/-- Where declarations are comments, every round of the loop over children fails, ends the loop or takes
a character, and every production that is entered fails or takes one. So the loops end without guards, in
no more rounds than there are characters and one, and give what they give with them; no text is empty. -/
theorem parser_progresses {source : String} (marks : MarksComments source.toList)
    (beyond : Parser (List (Option Node) × Terminator)) {room : Nat} (enough : source.length < room) :
    (∀ levels inElement s, s.cursor.rest <:+ source.toList →
      Progresses (unguardedBelow beyond room levels) inElement s ∧
      (unguarded beyond room (unguardedBelow beyond room levels)).children inElement s =
        (atLevel levels).children inElement s) ∧
    (∀ beyond s, s.cursor.rest.length < room → rounds beyond attributeStep room s = attributes s) ∧
    ∀ document, parse source = .ok document → AreFilled document.children := by
  refine ⟨fun levels inElement s within => ?_, fun beyond s => rounds_attributeStep beyond,
    fun document => areFilled_of_parse⟩
  have behind := marks.suffix within
  have short : s.cursor.rest.length < room := within.length_le.trans_lt enough
  exact ⟨progresses_unguardedBelow beyond levels inElement behind short,
    (allAlike_unguarded beyond levels (alikeBelow beyond room levels)).children inElement s behind short⟩

/-- A comment, an element with attributes, and a block, with texts between them. -/
def commented : String := "<!-- a -->b <p c d=\x7be\x7d>f</p>\x7b#if g\x7dh\x7b/if\x7d"

theorem parser_progresses_commented : MarksComments commented.toList ∧
    (∀ beyond, (unguarded beyond 50 (unguardedBelow beyond 50 maxNesting)).children false
        ⟨.ofText commented .start, none⟩ =
      (atLevel maxNesting).children false ⟨.ofText commented .start, none⟩) ∧
    ∃ document, parse commented = .ok document ∧ AreFilled document.children := by
  have chars : commented.toList = _ := String.toList_ofList
  have marks : MarksComments commented.toList := by decide +kernel
  have short : commented.length < 50 := by decide +kernel
  have parsed : (parse commented).toOption.isSome = true := by
    rw [parse_of_toList chars]
    decide +kernel
  obtain ⟨document, parsed⟩ := Option.isSome_iff_exists.mp parsed
  have parsed := toOption_eq_some.mp parsed
  obtain ⟨-, -, filled⟩ := parser_progresses marks (Parser.fail .endInsideTag) short
  refine ⟨marks, fun beyond => ?_, document, parsed, filled document parsed⟩
  exact ((parser_progresses marks beyond short).1 maxNesting false _ List.suffix_rfl).2

section Declaration

variable {deeper : Position → Bool → Parser (List Node × Terminator)}
variable {ifBlock : Bool → String → Position → Parser Node} {s : Source}

/-- In front of any other declaration a round gives an empty text and stays where it is. -/
theorem unguardedStep_declaration (inElement : Bool) (begins : "<!".toList <+: s.cursor.rest)
    (noComment : ¬"<!--".toList <+: s.cursor.rest) :
    unguardedStep deeper ifBlock inElement s = .ok (.inl (some (.text s.cursor.pos "")), s) := by
  obtain ⟨more, ahead⟩ := begins
  have ahead : s.cursor.rest = '<' :: '!' :: more := ahead.symm
  have reads : stepAt deeper ifBlock anyText inElement ('<' :: '!' :: more) =
      (do return .inl (some (← anyText))) := by
    have letter : Text.isAsciiLetter '!' = false := by decide
    match more with
    | [] => simp [stepAt, letter]
    | [c] => simp [stepAt, letter]
    | c :: d :: more =>
      by_cases first : c = '-'
      · have second : d ≠ '-' := by
          rintro rfl
          exact noComment (by rw [ahead, first]; exact ⟨more, rfl⟩)
        simp [stepAt, second, letter]
      · simp [stepAt, first, letter]
  rw [unguardedStep, rest_bind, ahead, reads, run_bind, anyText, here_bind, rest_bind, ahead]
  rfl

/-- So the loop does not end there: all its rounds are used up, however many there are. -/
theorem rounds_declaration (inElement : Bool) (begins : "<!".toList <+: s.cursor.rest)
    (noComment : ¬"<!--".toList <+: s.cursor.rest)
    (beyond : Parser (List (Option Node) × Terminator)) (n : Nat) :
    rounds beyond (unguardedStep deeper ifBlock inElement) n s = (beyond s).map fun found =>
      ((List.replicate n (some (.text s.cursor.pos "")) ++ found.1.1, found.1.2), found.2) := by
  induction n with
  | zero =>
    rw [rounds]
    cases beyond s <;> rfl
  | succ n ih =>
    rw [rounds, run_bind, unguardedStep_declaration inElement begins noComment, ok_bind]
    dsimp only
    rw [run_bind, ih]
    cases beyond s <;> rfl

end Declaration

end Dashboard.Markup
