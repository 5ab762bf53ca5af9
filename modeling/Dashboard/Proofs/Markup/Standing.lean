import Dashboard.Proofs.Markup.Documents
import Dashboard.Proofs.Position

/-!
Where the nodes of a document stand in its text. The parser counts places over what it takes, so
every node stands at its place, and an expression is parsed from text that stands where the parser is
told. Conditions are the exception: the text of a condition is parsed as if it stood at the place of
its block.
-/
namespace Dashboard.Markup

section Exact

/-! What a parsed tree says of the text that it was parsed from. -/

variable (text : List Char)

def Mustache.IsExact (tag : Mustache) : Prop :=
  Stands .start text tag.position [] ∧ ∃ content inside, Stands .start text inside content.toList ∧
    tag.raw = Text.trimmed content ∧ Script.parseExpression content inside = .ok tag.expression

/-- The text of a quoted value stands behind its quote; a value without quotes begins with none. -/
def AttributeValue.IsExact : AttributeValue → Prop
  | .bare => True
  | .text p data =>
    (∃ c more, data.toList = c :: more ∧ ¬ (c = '\x22' ∨ c = '\x27') ∧
      Stands .start text p data.toList) ∨
    ∃ quote, (quote = '\x22' ∨ quote = '\x27') ∧
      Stands .start text p (quote :: (data.toList ++ [quote]))
  | .mustache tag => tag.IsExact text

def Attribute.IsExact (a : Attribute) : Prop :=
  Stands .start text a.position a.name.toList ∧ a.value.IsExact text

/-- The text of a condition stands behind the place of its block. -/
def IsCondition (raw : String) (p : Position) : Prop :=
  Stands .start text p [] ∧ ∃ q, p.offset < q.offset ∧ Stands .start text q raw.toList

mutual

def Node.IsExact : Node → Prop
  | .element p _ attributes children =>
    Stands .start text p [] ∧ (∀ a ∈ attributes, a.IsExact text) ∧ AreExact children
  | .text p data => Stands .start text p data.toList
  | .mustache tag => tag.IsExact text
  | .ifBlock p raw condition children alternative =>
    IsCondition text raw p ∧ Script.parseExpression raw p = .ok condition ∧ AreExact children ∧
      alternative.IsExact
  | .comment p data => Stands .start text p ("<!--".toList ++ (data.toList ++ "-->".toList))
  | .style p attributes _ => Stands .start text p [] ∧ ∀ a ∈ attributes, a.IsExact text

def Alternative.IsExact : Alternative → Prop
  | .absent => True
  | .otherwise p children => Stands .start text p [] ∧ AreExact children
  | .elseIf p block => Stands .start text p [] ∧ block.IsExact

def AreExact : List Node → Prop
  | [] => True
  | first :: more => first.IsExact ∧ AreExact more

end

/-- The body of a region stands in front of the closing tag, or the tag of the region closes itself. -/
structure ScriptRegion.IsExact (region : ScriptRegion) : Prop where
  place : Stands .start text region.position []
  attributes : ∀ a ∈ region.attributes, a.IsExact text
  body : (∃ closing, closing.map Char.toLower = "</script".toList ∧
      Stands .start text region.origin (region.raw.toList ++ closing)) ∨
    (region.raw = "" ∧ ∃ p, Stands .start text p "/>".toList ∧ region.origin = p.advance "/>".toList)

def Terminator.IsExact : Terminator → Prop
  | .otherwise p => Stands .start text p []
  | .elseIf raw p => IsCondition text raw p
  | .endOfText | .closingTag .. | .endIf _ => True

end Exact

variable {text before : List Char}

theorem areExact_append {front back : List Node} (hf : AreExact text front)
    (hb : AreExact text back) : AreExact text (front ++ back) := by
  induction front with
  | nil => exact hb
  | cons first more ih => exact ⟨hf.1, ih hf.2⟩

/-- The state of a parser that has taken `before` of the text. -/
structure Source.Behind (text before : List Char) (s : Source) : Prop where
  rest : text = before ++ s.cursor.rest
  place : s.cursor.pos = Position.start.advance before
  script : ∀ region, s.script = some region → region.IsExact text

theorem Source.Behind.after {s : Source} (h : s.Behind text before) (n : Nat) :
    (s.after n).Behind text (before ++ s.cursor.rest.take n) where
  rest := by rw [List.append_assoc, after_rest, List.take_append_drop, ← h.rest]
  place := by
    rw [Position.advance_append, ← h.place]
    rfl
  script := h.script

namespace Parser

variable {α β γ τ : Type} {P : α → List Char → Prop} {Q : β → List Char → Prop}

/-- Behind `before` the parser gives nothing but results that are as `P` says in what they take. -/
def Reads (text before : List Char) (P : α → List Char → Prop) (p : Parser α) : Prop :=
  ∀ s, s.Behind text before → ∀ v s', p s = .ok (v, s') →
    ∃ taken, s'.Behind text (before ++ taken) ∧ P v taken

theorem Reads.mono {P' : α → List Char → Prop} {p : Parser α} (h : Reads text before P p)
    (weaker : ∀ v taken, P v taken → P' v taken) : Reads text before P' p := by
  intro s behind v s' ran
  obtain ⟨taken, later, result⟩ := h s behind v s' ran
  exact ⟨taken, later, weaker v taken result⟩

theorem Reads.bind {p : Parser β} {f : β → Parser α} (h : Reads text before Q p)
    (next : ∀ v taken, Q v taken →
      Reads text (before ++ taken) (fun w more => P w (taken ++ more)) (f v)) :
    Reads text before P (p >>= f) := by
  intro s behind v s' ran
  obtain ⟨w, t, first, second⟩ := run_bind_eq_ok.mp ran
  obtain ⟨taken, middle, result⟩ := h s behind w t first
  obtain ⟨more, last, final⟩ := next w taken result t middle v s' second
  exact ⟨taken ++ more, by rwa [← List.append_assoc], final⟩

theorem Reads.pure {v : α} (h : P v []) : Reads text before P (Pure.pure v) := by
  intro s behind w s' ran
  cases ran
  exact ⟨[], by rwa [List.append_nil], h⟩

theorem Reads.throw (e : ParseError) : Reads text before P (MonadExcept.throw e : Parser α) := by
  intro s behind v s' ran
  cases ran

theorem Reads.failAt (fault : ParseFault) (position : Position) :
    Reads text before P (Parser.failAt fault position : Parser α) := .throw _

theorem Reads.fail (fault : ParseFault) : Reads text before P (Parser.fail fault : Parser α) := by
  intro s behind v s' ran
  cases ran

/-- What is still to be read is what stands behind. -/
theorem Reads.ahead {p : Parser α}
    (h : ∀ behind, text = before ++ behind → Reads text before P p) : Reads text before P p :=
  fun s behind => h _ behind.rest s behind

theorem Reads.rest {f : List Char → Parser α}
    (h : ∀ behind, text = before ++ behind → Reads text before P (f behind)) :
    Reads text before P (rest >>= f) :=
  fun s behind v s' ran => h _ behind.rest s behind v s' ran

theorem Reads.here {f : Position → Parser α}
    (h : Reads text before P (f (Position.start.advance before))) :
    Reads text before P (here >>= f) := by
  intro s behind v s' ran
  have ran : f s.cursor.pos s = .ok (v, s') := ran
  rw [behind.place] at ran
  exact h s behind v s' ran

/-- Parsers that take so many characters. -/
theorem reads_of_after {p : Parser α}
    (h : ∀ s v s', p s = .ok (v, s') → ∃ n, s' = s.after n ∧ P v (s.cursor.rest.take n)) :
    Reads text before P p := by
  intro s behind v s' ran
  obtain ⟨n, rfl, result⟩ := h s v s' ran
  exact ⟨_, behind.after n, result⟩

theorem reads_skip (n : Nat) :
    Reads text before (fun _ taken => ∀ behind, text = before ++ behind → taken = behind.take n)
      (skip n) := by
  intro s behind v s' ran
  cases ran
  refine ⟨_, behind.after n, fun ahead shape => ?_⟩
  rw [behind.rest] at shape
  rw [List.append_cancel_left shape]

theorem reads_take (n : Nat) :
    Reads text before (fun v taken => v.toList = taken ∧
      ∀ behind, text = before ++ behind → taken = behind.take n) (take n) :=
  .rest fun _ shape => (reads_skip n).bind fun _ taken same => .pure (by
    rw [List.append_nil]
    exact ⟨by rw [String.toList_ofList, same _ shape], same⟩)

theorem Follows.reads {l : Lookahead} {n : Nat} {R : α → β → Prop} {p : Parser α} {q : Parser β}
    (h : Follows l n R p q) : Reads text before (fun _ _ => True) p :=
  reads_of_after fun s v s' ran => by
    obtain ⟨k, -, same, -⟩ := h s v s' ran
    exact ⟨k, same, trivial⟩

theorem reads_skipBlanks : Reads text before (fun _ _ => True) skipBlanks := follows_skipBlanks.reads

theorem reads_expectChar (c : Char) :
    Reads text before (fun _ taken => taken = [c]) (expectChar c) :=
  reads_of_after fun s v s' ran => by
    obtain ⟨next, same⟩ := expectChar_eq_ok ran
    obtain ⟨more, shape⟩ := List.head?_eq_some_iff.mp next
    exact ⟨1, same, by rw [shape, List.take_succ_cons, List.take_zero]⟩

theorem reads_name (what : String) :
    Reads text before (fun v taken => v.toList = taken) (name what) := by
  have run : Reads text before (fun v taken => v.toList = taken) (takeWhile isNameChar) :=
    .rest fun _ _ => (reads_take _).mono fun _ _ same => same.1
  refine run.bind fun v taken same => ?_
  split_ifs
  · exact .fail _
  · exact .pure (by rw [List.append_nil, same])

/-- What has been taken stands at the place in front of it. -/
theorem stands_of_taken {taken : List Char} (behind : List Char)
    (h : text = before ++ taken ++ behind) :
    Stands .start text (Position.start.advance before) taken :=
  ⟨before, behind, by rw [h, List.append_assoc], rfl⟩

theorem stands_here {behind : List Char} (h : text = before ++ behind) :
    Stands .start text (Position.start.advance before) [] :=
  ⟨before, behind, h, rfl⟩

/-- The text between braces stands where the parser says, behind the opening brace. -/
theorem reads_braced :
    Reads text before (fun v _ => Stands .start text v.2 v.1.toList ∧
      (Position.start.advance before).offset < v.2.offset) braced := by
  refine .ahead fun whole shape => .here ((reads_skip 1).bind fun _ mark one => .here ?_)
  refine .rest fun behind ahead => ?_
  cases found : bracedLength? 0 none behind with
  | none => exact .failAt _ _
  | some n =>
    refine (reads_take n).bind fun content taken same => (reads_skip 1).bind fun _ closing _ => ?_
    refine .ahead fun rest final => .pure ⟨?_, ?_⟩
    · rw [same.1]
      exact stands_of_taken (closing ++ rest) (by simp [final])
    · -- The opening brace is there: nothing is found between braces in an empty text.
      have opened : mark ≠ [] := by
        rintro rfl
        have empty : whole = [] := by simpa using one whole shape
        obtain rfl : behind = [] := by simpa [shape, empty] using ahead
        cases found
      have longer := List.length_pos_of_ne_nil opened
      simp only [Position.advance_append, Position.advance_offset]
      omega

theorem reads_liftExpression (content : String) (p : Position) :
    Reads text before (fun v _ => Script.parseExpression content p = .ok v)
      (liftExpression content p) := by
  intro s behind v s' ran
  obtain ⟨w, parsed, shape⟩ := map_eq_ok.mp ran
  cases shape
  exact ⟨[], by rwa [List.append_nil], parsed⟩

theorem reads_mustache : Reads text before (fun tag _ => tag.IsExact text) mustache := by
  refine .ahead fun _ shape => .here (reads_braced.bind fun found _ stands => ?_)
  obtain ⟨content, inside⟩ := found
  dsimp only
  split_ifs
  · intro s behind v s' ran
    cases ran
  · refine (reads_liftExpression content inside).bind fun expression _ parsed => .pure ?_
    exact ⟨stands_here shape, content, inside, stands.1, rfl, parsed⟩

theorem reads_text : Reads text before (fun node _ => node.IsExact text) Parser.text := by
  refine .here (.rest fun behind shape => ?_)
  split
  · exact .fail _
  · refine (reads_take _).bind fun data taken same => .ahead fun rest final => .pure ?_
    rw [Node.IsExact, same.1]
    exact stands_of_taken _ final

/-! Marks are found in either case; a mark without letters is found as it is. -/

theorem eq_of_toLower_eq {c d : Char} (h : c.toLower = d) (plain : d.isLower = false) : c = d := by
  subst h
  by_cases upper : c.val ≥ 'A'.val ∧ c.val ≤ 'Z'.val
  · have low : 65 ≤ c.val.toNat := UInt32.le_iff_toNat_le.mp upper.1
    have high : c.val.toNat ≤ 90 := UInt32.le_iff_toNat_le.mp upper.2
    have same : c.toLower.val = c.val + ('a'.val - 'A'.val) := congrArg Char.val (dif_pos upper)
    have shifted : c.toLower.val.toNat = c.val.toNat + 32 := by
      rw [same, UInt32.toNat_add]
      exact Nat.mod_eq_of_lt (show c.val.toNat + 32 < 2 ^ 32 by omega)
    have lower : 97 ≤ c.toLower.val ∧ c.toLower.val ≤ 122 := by
      rw [UInt32.le_iff_toNat_le, UInt32.le_iff_toNat_le, shifted]
      exact ⟨show 97 ≤ _ by omega, show _ ≤ 122 by omega⟩
    have isLower : c.toLower.isLower = true :=
      Bool.and_eq_true_iff.mpr ⟨decide_eq_true lower.1, decide_eq_true lower.2⟩
    exact absurd isLower (by rw [plain]; exact Bool.false_ne_true)
  · exact (show c.toLower = c from dif_neg upper).symm

theorem eq_of_map_toLower_eq {found mark : List Char} (h : found.map Char.toLower = mark)
    (plain : ∀ c ∈ mark, c.isLower = false) : found = mark := by
  induction found generalizing mark with
  | nil => exact h
  | cons c found ih =>
    subst h
    rw [List.map_cons] at plain ⊢
    obtain ⟨here, later⟩ := List.forall_mem_cons.mp plain
    rw [← eq_of_toLower_eq rfl here, ← ih rfl later]

theorem exists_of_startsWith {mark behind : List Char}
    (h : distance?.startsWith mark behind = true) :
    ∃ found more, behind = found ++ more ∧ found.map Char.toLower = mark.map Char.toLower := by
  induction mark generalizing behind with
  | nil => exact ⟨[], behind, rfl, rfl⟩
  | cons m mark ih =>
    cases behind with
    | nil => cases h
    | cons c behind =>
      rw [distance?.startsWith, Bool.and_eq_true, decide_eq_true_eq] at h
      obtain ⟨found, more, rfl, same⟩ := ih h.2
      exact ⟨c :: found, more, rfl, by rw [List.map_cons, List.map_cons, same, h.1]⟩

/-- A mark that is found stands behind as many characters as are counted. -/
theorem exists_of_distance? {mark behind : List Char} {n : Nat}
    (h : distance? mark behind = some n) :
    ∃ found more, behind = behind.take n ++ (found ++ more) ∧
      found.map Char.toLower = mark.map Char.toLower := by
  induction behind generalizing n with
  | nil =>
    rw [distance?] at h
    split_ifs at h with empty
    cases h
    exact ⟨[], [], rfl, by rw [List.isEmpty_iff.mp empty]⟩
  | cons c behind ih =>
    rw [distance?] at h
    split_ifs at h with here
    · cases h
      exact exists_of_startsWith here
    · obtain ⟨k, later, rfl⟩ := Option.map_eq_some_iff.mp h
      obtain ⟨found, more, shape, same⟩ := ih later
      exact ⟨found, more, by rw [List.take_succ_cons, List.cons_append, ← shape], same⟩

/-- What goes on to a mark, which is taken too. -/
theorem reads_upTo {mark : List Char} {n : Nat} {behind : List Char} {f : String → Parser α}
    (shape : text = before ++ behind) (h : distance? mark behind = some n)
    (next : ∀ data taken found, data.toList = taken → found.map Char.toLower = mark.map Char.toLower →
      Reads text (before ++ taken ++ found) (fun w more => P w (taken ++ (found ++ more))) (f data)) :
    Reads text before P (do
      let data ← take n
      skip mark.length
      f data) := by
  obtain ⟨found, more, split, same⟩ := exists_of_distance? h
  have size : found.length = mark.length := by simpa using congrArg List.length same
  refine (reads_take n).bind fun data taken read => ?_
  refine (reads_skip mark.length).bind fun _ closing closes => ?_
  obtain rfl : taken = behind.take n := read.2 behind shape
  have rest : text = before ++ behind.take n ++ (found ++ more) := by
    rw [List.append_assoc, ← split, shape]
  obtain rfl : closing = found := by
    rw [closes _ rest, ← size, List.take_left]
  exact next data _ closing read.1 same

theorem reads_comment {behind : List Char} (shape : text = before ++ ("<!--".toList ++ behind)) :
    Reads text before (fun node _ => node.IsExact text) comment := by
  refine .here ((reads_skip 4).bind fun _ opening opens => ?_)
  obtain rfl : opening = "<!--".toList := opens _ shape
  refine .rest fun behind ahead => ?_
  cases found : distance? "-->".toList behind with
  | none => exact .failAt _ _
  | some n =>
    refine reads_upTo ahead found fun data taken closing same closes => .ahead fun rest final => .pure ?_
    obtain rfl : closing = "-->".toList := eq_of_map_toLower_eq closes (by decide)
    rw [Node.IsExact, same]
    exact stands_of_taken rest (by simpa using final)

theorem reads_unquoted {c : Char} {more : List Char} (shape : text = before ++ c :: more)
    (plain : ¬ (c = '\x22' ∨ c = '\x27')) (p : Position) (h : p = Position.start.advance before) :
    Reads text before (fun (value : AttributeValue) _ => value.IsExact text) (do
      match unquotedLength (← rest) with
      | 0 => Parser.fail .missingAttributeValue
      | n => return .text p (← take n)) := by
  refine .rest fun behind _ => ?_
  split
  · exact .fail _
  · next some =>
    refine (reads_take _).bind fun data taken same => .ahead fun rest final => .pure (Or.inl ?_)
    obtain ⟨k, length⟩ := Nat.exists_eq_succ_of_ne_zero some
    refine ⟨c, more.take k, ?_, plain, ?_⟩
    · rw [same.1, same.2 _ shape, length, List.take_succ_cons]
    · rw [same.1, h]
      exact stands_of_taken _ final

theorem reads_attributeValue :
    Reads text before (fun value _ => value.IsExact text) attributeValue := by
  refine .here (.rest fun whole shape => ?_)
  split
  · exact reads_mustache.bind fun tag _ exact => .pure exact
  · next c _ first =>
    split_ifs with quoted
    · obtain ⟨more, rfl⟩ := List.head?_eq_some_iff.mp first
      refine (reads_skip 1).bind fun _ opening opens => ?_
      obtain rfl : opening = [c] := opens _ shape
      refine .rest fun behind ahead => ?_
      cases found : distance? [c] behind with
      | none => exact .failAt _ _
      | some n =>
        refine reads_upTo ahead found fun data taken closing same closes =>
          .ahead fun rest final => .pure (Or.inr ⟨c, quoted, ?_⟩)
        have closed : closing = [c] := by
          refine @eq_of_map_toLower_eq closing [c] ?_ ?_
          · rw [closes]
            rcases quoted with rfl | rfl <;> rfl
          · rcases quoted with rfl | rfl <;> decide
        subst closed
        rw [same]
        exact stands_of_taken rest (by simpa using final)
    · obtain ⟨more, rfl⟩ := List.head?_eq_some_iff.mp first
      exact reads_unquoted shape quoted _ rfl
  · exact .fail _

theorem reads_singleAttribute :
    Reads text before (fun a _ => a.IsExact text) singleAttribute := by
  refine .here ((reads_name _).bind fun name taken spelled => .ahead fun behind shape => ?_)
  have named : Stands .start text (Position.start.advance before) name.toList := by
    rw [spelled]
    exact stands_of_taken _ shape
  refine reads_skipBlanks.bind fun _ _ _ => .rest fun _ _ => ?_
  split_ifs
  · refine (reads_skip 1).bind fun _ _ _ => reads_skipBlanks.bind fun _ _ _ => ?_
    exact reads_attributeValue.bind fun value _ exact => .pure ⟨named, exact⟩
  · exact .pure ⟨named, trivial⟩

/-- Steps that are read one by one are read together. What the last one says of what it takes must
hold of any more. -/
theorem reads_repeated {A : α → Prop} {E : τ → List Char → Prop} {step : Parser (α ⊕ τ)} {last : τ}
    (longer : ∀ ended taken more, E ended more → E ended (taken ++ more))
    (stuck : ∀ taken, E last taken)
    (each : ∀ before, Reads text before (fun v taken => v.elim A (E · taken)) step)
    (before : List Char) :
    Reads text before (fun v taken => (∀ a ∈ v.1, A a) ∧ E v.2 taken) (repeated step last) := by
  intro s behind v s' ran
  induction n : s.cursor.rest.length using Nat.strong_induction_on generalizing before s v with
  | _ n ih =>
    obtain ⟨found, ended⟩ := v
    rcases repeated_eq_ok.mp ran with ⟨spent, rfl⟩ | ⟨first, t, step, rest⟩
    · obtain ⟨taken, later, result⟩ := each before s behind _ s' spent
      exact ⟨taken, later, by simp, result⟩
    · obtain ⟨taken, middle, here⟩ := each before s behind _ t step
      rcases rest with ⟨shorter, more, others, rfl⟩ | ⟨-, rfl, rfl, rfl⟩
      · obtain ⟨further, later, results, final⟩ := ih _ (n ▸ shorter) _ t middle _ others rfl
        refine ⟨taken ++ further, by rwa [← List.append_assoc], ?_, longer _ _ _ final⟩
        exact List.forall_mem_cons.mpr ⟨here, results⟩
      · exact ⟨taken, middle, List.forall_mem_singleton.mpr here, stuck taken⟩

/-- A tag that closes itself ends in a slash and an angle bracket. -/
theorem reads_attributes :
    Reads text before (fun v taken => (∀ a ∈ v.1, a.IsExact text) ∧
      (v.2 = true → "/>".toList <:+ taken)) attributes := by
  have same : attributes = repeated attributeStep false := funext attributes_eq
  rw [same]
  refine reads_repeated (A := Attribute.IsExact text)
    (E := fun ended taken => ended = true → "/>".toList <:+ taken)
    (fun ended taken more ends closed => (ends closed).trans (List.suffix_append _ _))
    (fun _ closed => absurd closed Bool.false_ne_true) (fun before => ?_) before
  refine reads_skipBlanks.bind fun _ _ _ => .rest fun behind shape => ?_
  unfold attributeOrEnd
  split
  · exact .fail _
  · exact (reads_skip 1).bind fun _ _ _ =>
      .pure fun closed => absurd closed Bool.false_ne_true
  · refine (reads_skip 1).bind fun _ slash first => ?_
    obtain rfl : slash = ['/'] := first _ shape
    refine (reads_expectChar '>').bind fun _ closing closes => .pure fun _ => ?_
    obtain rfl := closes
    exact List.suffix_append _ _
  · exact .fail _
  · exact reads_singleAttribute.bind fun a _ exact => .pure exact

/-- The text of a region stands in front of its closing tag. -/
theorem reads_rawText (tag : String) (p : Position) :
    Reads text before (fun raw _ => ∃ closing,
      closing.map Char.toLower = ("</".toList ++ tag.toList).map Char.toLower ∧
        Stands .start text (Position.start.advance before) (raw.toList ++ closing))
      (rawText tag p) := by
  refine .rest fun behind shape => ?_
  cases found : distance? ("</".toList ++ tag.toList) behind with
  | none =>
    exact .failAt _ _
  | some n =>
    refine reads_upTo shape found fun raw taken closing same closes => .ahead fun rest final => ?_
    refine reads_skipBlanks.bind fun _ _ _ => (reads_expectChar '>').bind fun _ _ _ => .pure ?_
    refine ⟨closing, closes, ?_⟩
    rw [same]
    exact stands_of_taken rest (by simpa using final)

theorem reads_get : Reads text before (fun _ _ => True) (get : Parser Source) := by
  intro s behind v s' ran
  cases ran
  exact ⟨[], by rwa [List.append_nil], trivial⟩

theorem reads_meet {region : ScriptRegion} (exact : region.IsExact text) :
    Reads text before (fun _ _ => True)
      (modify fun s => { s with script := some region } : Parser Unit) := by
  intro s behind v s' ran
  cases ran
  refine ⟨[], ?_, trivial⟩
  rw [List.append_nil]
  exact ⟨behind.rest, behind.place, fun other met => Option.some.inj met ▸ exact⟩

/-- What becomes of a region whose body is known. -/
def keepRegion (tag : String) (region : ScriptRegion) : Parser (Option Node) := do
  if tag = "style" then return some (.style region.position region.attributes region.raw)
  if (← get).script.isSome then Parser.failAt .secondScript region.position
  modify fun s => { s with script := some region }
  return none

theorem reads_keepRegion {tag : String} {region : ScriptRegion}
    (place : Stands .start text region.position [])
    (attributes : ∀ a ∈ region.attributes, a.IsExact text)
    (exact : tag ≠ "style" → region.IsExact text) :
    Reads text before (fun found _ => ∀ node, found = some node → node.IsExact text)
      (keepRegion tag region) := by
  unfold keepRegion
  split_ifs with style
  · refine .pure fun node same => ?_
    obtain rfl := Option.some.inj same
    exact ⟨place, attributes⟩
  · refine reads_get.bind fun s _ _ => ?_
    split_ifs
    · exact (Reads.failAt (P := fun _ _ => False) _ _).bind fun _ _ => False.elim
    · exact (reads_meet (exact style)).bind fun _ _ _ => .pure nofun

theorem reads_rawRegion {tag : String} (either : tag = "script" ∨ tag = "style") {p : Position}
    (place : Stands .start text p []) (inElement : Bool) :
    Reads text before (fun found _ => ∀ node, found = some node → node.IsExact text)
      (rawRegion tag p inElement) := by
  cases inElement with
  | true => exact .failAt _ _
  | false =>
    refine reads_attributes.bind fun v taken exact => .ahead fun behind shape => .here ?_
    obtain ⟨found, selfClosing⟩ := v
    obtain ⟨exact, closed⟩ := exact
    dsimp only at exact closed ⊢
    cases selfClosing with
    | true =>
      rw [if_pos rfl]
      refine (Reads.pure (P := fun raw _ => raw = "") rfl).bind fun raw _ empty => ?_
      refine @reads_keepRegion _ _ tag ⟨p, found, _, raw⟩ place exact fun _ =>
        ⟨place, exact, Or.inr ⟨empty, ?_⟩⟩
      obtain ⟨front, rfl⟩ := closed rfl
      refine ⟨Position.start.advance (before ++ front), stands_of_taken behind ?_, ?_⟩
      · simpa using shape
      · rw [← List.append_assoc, Position.advance_append]
    | false =>
      rw [if_neg Bool.false_ne_true]
      refine (reads_rawText tag p).bind fun raw _ body => ?_
      refine @reads_keepRegion _ _ tag ⟨p, found, _, raw⟩ place exact fun other =>
        ⟨place, exact, Or.inl ?_⟩
      obtain rfl := either.resolve_right other
      exact body

end Parser

open Dashboard.Markup.Parser

namespace Productions

section Level

variable {deeper : Position → Bool → Parser (List Node × Terminator)}
variable {ifBlock : Bool → String → Position → Parser Node}

/-- Children and what ends them. -/
abbrev ReadsChildren (text : List Char) (p : Parser (List Node × Terminator)) : Prop :=
  ∀ before, Reads text before (fun v _ => AreExact text v.1 ∧ v.2.IsExact text) p

theorem reads_elementChildren (hd : ∀ p e, ReadsChildren text (deeper p e)) (name : String)
    (p : Position) :
    Reads text before (fun children _ => AreExact text children)
      (elementChildren deeper name p) := by
  refine (hd p true before).bind fun v _ exact => ?_
  obtain ⟨children, ended⟩ := v
  cases ended with
  | closingTag closing place =>
    dsimp only
    split_ifs
    · exact .pure exact.1
    · exact .failAt _ _
  | _ => exact .failAt _ _

theorem reads_element (hd : ∀ p e, ReadsChildren text (deeper p e)) (inElement : Bool) :
    Reads text before (fun found _ => ∀ node, found = some node → node.IsExact text)
      (element deeper inElement) := by
  refine .ahead fun _ shape => .here ((reads_skip 1).bind fun _ _ _ => ?_)
  refine (reads_name _).bind fun name _ _ => ?_
  have place := stands_here shape
  dsimp only
  split_ifs with raw
  · exact reads_rawRegion raw place inElement
  · refine reads_attributes.bind fun v _ exact => ?_
    obtain ⟨found, selfClosing⟩ := v
    dsimp only
    split_ifs
    · refine .pure ?_
      rintro _ ⟨⟩
      exact ⟨place, exact.1, trivial⟩
    · refine (reads_elementChildren hd name _).bind fun children _ inner => .pure ?_
      rintro _ ⟨⟩
      exact ⟨place, exact.1, inner⟩

theorem isCondition_of_braced {behind : List Char} {v : String × Position} {raw : String}
    (shape : text = before ++ behind) (stands : Stands .start text v.2 v.1.toList ∧
      (Position.start.advance before).offset < v.2.offset) (within : raw.toList <:+: v.1.toList) :
    IsCondition text raw (Position.start.advance before) := by
  obtain ⟨q, further, place⟩ := stands.1.inside within
  exact ⟨stands_here shape, q, by omega, place⟩

theorem reads_openBlock
    (hi : ∀ e raw p, IsCondition text raw p → ∀ before,
      Reads text before (fun node _ => node.IsExact text) (ifBlock e raw p)) (inElement : Bool) :
    Reads text before (fun node _ => node.IsExact text) (openBlock ifBlock inElement) := by
  refine .ahead fun _ shape => .here (reads_braced.bind fun v _ stands => ?_)
  obtain ⟨content, inside⟩ := v
  dsimp only
  split_ifs
  · refine hi _ _ _ (isCondition_of_braced shape stands ?_) _
    rw [String.toList_ofList]
    exact (Text.isInfix_trim _).trans ((List.drop_suffix _ _).isInfix.trans
      ((List.dropWhile_suffix _).isInfix.trans (List.drop_suffix _ _).isInfix))
  · exact .failAt _ _

theorem reads_closingTag :
    Reads text before (fun ended _ => ended.IsExact text) closingTag := by
  refine .here ((reads_skip 2).bind fun _ _ _ => (reads_name _).bind fun name _ _ => ?_)
  exact reads_skipBlanks.bind fun _ _ _ => (reads_expectChar '>').bind fun _ _ _ => .pure trivial

theorem reads_continuation :
    Reads text before (fun ended _ => ended.IsExact text) continuation := by
  refine .ahead fun _ shape => .here (reads_braced.bind fun v _ stands => ?_)
  obtain ⟨content, inside⟩ := v
  dsimp only
  split_ifs
  · exact .pure (stands_here shape)
  · refine .pure (isCondition_of_braced shape stands ?_)
    rw [String.toList_ofList]
    exact (Text.isInfix_trim _).trans ((List.drop_suffix _ _).isInfix.trans
      ((Text.isInfix_trim _).trans (List.drop_suffix _ _).isInfix))
  · exact .failAt _ _

theorem reads_blockEnd : Reads text before (fun ended _ => ended.IsExact text) blockEnd := by
  refine .here (reads_braced.bind fun v _ _ => ?_)
  obtain ⟨content, inside⟩ := v
  dsimp only
  split_ifs
  · exact .pure trivial
  · exact .failAt _ _

/-- One step through the children. -/
theorem reads_step (hd : ∀ p e, ReadsChildren text (deeper p e))
    (hi : ∀ e raw p, IsCondition text raw p → ∀ before,
      Reads text before (fun node _ => node.IsExact text) (ifBlock e raw p)) (inElement : Bool) :
    Reads text before
      (fun v _ => v.elim (fun found => ∀ node, found = some node → node.IsExact text)
        (·.IsExact text)) (step deeper ifBlock inElement) := by
  have child {before : List Char} {p : Parser Node}
      (exact : Reads text before (fun node _ => node.IsExact text) p) :
      Reads text before
        (fun (v : Option Node ⊕ Terminator) _ =>
          v.elim (fun found => ∀ node, found = some node → node.IsExact text) (·.IsExact text))
        (do return .inl (some (← p))) :=
    exact.bind fun node _ exact => .pure fun other same => Option.some.inj same ▸ exact
  refine .rest fun behind shape => ?_
  split
  · exact .pure trivial
  · exact child (reads_comment shape)
  · exact reads_closingTag.bind fun _ _ exact => .pure exact
  · exact child (reads_openBlock hi inElement)
  · exact reads_continuation.bind fun _ _ exact => .pure exact
  · exact reads_blockEnd.bind fun _ _ exact => .pure exact
  · exact .fail _
  · exact reads_mustache.bind fun tag _ exact => .pure fun other same => Option.some.inj same ▸ exact
  · split_ifs
    · exact (reads_element hd inElement).bind fun _ _ exact => .pure exact
    · exact child reads_text
  · exact child reads_text

theorem areExact_flatMap {found : List (Option Node)}
    (h : ∀ child ∈ found, ∀ node, child = some node → node.IsExact text) :
    AreExact text (found.flatMap Option.toList) := by
  induction found with
  | nil => trivial
  | cons first more ih =>
    obtain ⟨here, later⟩ := List.forall_mem_cons.mp h
    rw [List.flatMap_cons]
    refine areExact_append ?_ (ih later)
    cases first with
    | none => trivial
    | some node => exact ⟨here node rfl, trivial⟩

theorem reads_childrenUntil (hd : ∀ p e, ReadsChildren text (deeper p e))
    (hi : ∀ e raw p, IsCondition text raw p → ∀ before,
      Reads text before (fun node _ => node.IsExact text) (ifBlock e raw p)) (inElement : Bool) :
    ReadsChildren text (childrenUntil deeper ifBlock inElement) := by
  intro before
  rw [childrenUntil_eq]
  refine (reads_repeated (fun _ _ _ exact => exact) (fun _ => trivial)
    (fun before => reads_step hd hi inElement) before).bind fun v _ exact => .pure ?_
  exact ⟨areExact_flatMap exact.1, exact.2⟩

end Level

/-- Both productions of a level give exact trees. -/
structure GiveExact (text : List Char) (inner : Productions) : Prop where
  children : ∀ e, ReadsChildren text (inner.children e)
  ifBlock : ∀ e raw p, IsCondition text raw p → ∀ before,
    Reads text before (fun node _ => node.IsExact text) (inner.ifBlock e raw p)

theorem reads_branches {inner : Productions} (h : inner.GiveExact text) (inElement : Bool)
    {raw : String} {p : Position} (stands : IsCondition text raw p) :
    Reads text before (fun node _ => node.IsExact text) (branches inner inElement raw p) := by
  cases written : raw.isEmpty with
  | true =>
    intro s behind v s' ran
    simp only [branches, written, if_true] at ran
    cases ran
  | false =>
    rw [branches_eq inElement written]
    refine (reads_liftExpression raw p).bind fun test _ parsed => ?_
    refine (h.children inElement _).bind fun found _ exact => ?_
    obtain ⟨children, ended⟩ := found
    obtain ⟨inside, ends⟩ := exact
    cases ended with
    | endIf => exact .pure ⟨stands, parsed, inside, trivial⟩
    | otherwise place =>
      refine (h.children inElement _).bind fun found _ exact => ?_
      obtain ⟨others, ended⟩ := found
      cases ended with
      | endIf => exact .pure ⟨stands, parsed, inside, ends, exact.1⟩
      | _ => exact .throw _
    | elseIf next place =>
      refine (h.ifBlock inElement next place ends _).bind fun block _ exact => ?_
      exact .pure ⟨stands, parsed, inside, ends.1, exact⟩
    | _ => exact .throw _

theorem giveExact_atLevel (text : List Char) (levels : Nat) : (atLevel levels).GiveExact text := by
  induction levels with
  | zero =>
    refine ⟨fun e => reads_childrenUntil (fun p e _ => .failAt _ _) (fun e raw p _ _ => .failAt _ _) e,
      fun e raw p _ _ => .failAt _ _⟩
  | succ levels ih =>
    have blocks (e : Bool) (raw : String) (p : Position) (stands : IsCondition text raw p)
        (before : List Char) := @reads_branches text before _ ih e raw p stands
    exact ⟨reads_childrenUntil (fun _ => ih.children) blocks, blocks⟩

end Productions

/-- The body of a script region stands at its origin. -/
theorem ScriptRegion.IsExact.raw {region : ScriptRegion} (h : region.IsExact text) :
    Stands .start text region.origin region.raw.toList := by
  rcases h.body with ⟨closing, -, stands⟩ | ⟨empty, p, stands, same⟩
  · exact stands.left
  · rw [empty, same]
    exact @Stands.right .start p text "/>".toList [] stands

/-- The nodes of a parsed document stand in its source where they say, and so does its script. -/
theorem isExact_of_parse {source : String} {document : Document} (h : parse source = .ok document) :
    AreExact source.toList document.children ∧
      ∀ region, document.script = some region → region.IsExact source.toList := by
  obtain ⟨children, s, ran, rfl⟩ := parse_eq_ok.mp h
  have start : Source.Behind source.toList [] ⟨.ofText source .start, none⟩ := ⟨rfl, rfl, nofun⟩
  obtain ⟨_, behind, exact, -⟩ :=
    (Productions.giveExact_atLevel source.toList maxNesting).children false [] _ start _ s ran
  exact ⟨exact, behind.script⟩

end Dashboard.Markup
