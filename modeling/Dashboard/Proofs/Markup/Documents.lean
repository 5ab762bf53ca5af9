import Dashboard.Proofs.Markup.Levels

/-!
Whole documents and their preprocessing. A document without a script region gets one that holds the
standard imports, and is parsed as before behind it, but for the line feed between them; where a document
has a script region, the imports stand before its body.
-/
namespace Dashboard.Markup

open Dashboard.Markup.Parser Dashboard.Markup.Productions

variable {insertion : List Char}

/-- Children that begin with a line feed, and the same children without it. -/
inductive Broken : List Node → List Node → Prop
  | before (p : Position) (children : List Node) : Broken (.text p "\n" :: children) children
  | into (p q : Position) (data : String) (more : List Node) :
    Broken (.text p ("\n" ++ data) :: more) (.text q data :: more)

section Break

variable {deeper : Position → Bool → Parser (List Node × Terminator)}
variable {ifBlock : Bool → String → Position → Parser Node}

theorem stepAt_text (reading : Parser Node) (inElement : Bool) {text : List Char}
    (h : textLength text ≠ 0) :
    stepAt deeper ifBlock reading inElement text = (do return .inl (some (← reading))) := by
  cases text with
  | nil => exact absurd rfl h
  | cons c more =>
    rw [textLength] at h
    split_ifs at h with stops
    · exact absurd rfl h
    · obtain ⟨brace, tag⟩ := not_or.mp stops
      by_cases angle : c = '<'
      · subst angle
        cases more with
        | nil => rfl
        | cons d tail =>
          have start : isTagStart d = false := by simpa using tag
          simp only [isTagStart, Bool.or_eq_false_iff, decide_eq_false_iff_not] at start
          obtain ⟨⟨letter, closing⟩, mark⟩ := start
          simp [stepAt, letter, mark]
      · simp [stepAt, angle, brace]

theorem text_eq_ok {s : Source} {n : Nat} (h : textLength s.cursor.rest = n + 1) :
    Parser.text s = .ok (.text s.cursor.pos (String.ofList (s.cursor.rest.take (n + 1))),
      s.after (n + 1)) := by
  rw [Parser.text, here_bind, rest_bind, h]
  rfl

theorem step_text (inElement : Bool) {s : Source} {n : Nat}
    (h : textLength s.cursor.rest = n + 1) :
    step deeper ifBlock inElement s =
      .ok (.inl (some (.text s.cursor.pos (String.ofList (s.cursor.rest.take (n + 1))))),
        s.after (n + 1)) := by
  rw [step_run, stepAt_text _ inElement (by omega), run_bind, text_eq_ok h]
  rfl

/-- A line feed in front of children is text, and nothing else changes. -/
theorem childrenUntil_break {inElement : Bool} {t u : Source} {text : List Char}
    {children : List Node} {ended : Terminator} (h : t.cursor.rest = '\n' :: text)
    (ran : childrenUntil deeper ifBlock inElement (t.after 1) = .ok ((children, ended), u)) :
    ∃ broken, childrenUntil deeper ifBlock inElement t = .ok ((broken, ended), u) ∧
      Broken broken children := by
  have length : textLength t.cursor.rest = textLength text + 1 := by
    rw [h, textLength]
    simp
  have first := @step_text deeper ifBlock inElement t _ length
  have rest : (t.after 1).cursor.rest = text := by rw [Source.after_rest, h]; rfl
  rw [childrenUntil_eq] at ran ⊢
  obtain ⟨⟨found, ended⟩, u', steps, last⟩ := run_bind_eq_ok.mp ran
  cases last
  have shorter : ∀ n, (t.after (n + 1)).cursor.rest.length < t.cursor.rest.length := by
    intro n
    rw [Source.after_rest, h, List.length_drop, List.length_cons]
    omega
  cases size : textLength text with
  | zero =>
    rw [size] at first
    refine ⟨_, run_bind_eq_ok.mpr ⟨_, u, repeated_eq_ok.mpr (Or.inr ⟨_, _, first,
      Or.inl ⟨shorter 0, found, steps, rfl⟩⟩), rfl⟩, ?_⟩
    rw [h]
    exact .before _ _
  | succ n =>
    rw [size] at first
    have second := @step_text deeper ifBlock inElement (t.after 1) n (by rw [rest, size])
    rcases repeated_eq_ok.mp steps with ⟨spent, -⟩ | ⟨_, _, again, further⟩
    · rw [second] at spent
      cases spent
    · rw [second] at again
      cases again
      have progress : ((t.after 1).after (n + 1)).cursor.rest.length <
          (t.after 1).cursor.rest.length := by
        have some : text ≠ [] := by
          rintro rfl
          cases size
        have pos := List.length_pos_iff.mpr some
        rw [Source.after_rest, rest, List.length_drop]
        omega
      rcases further with ⟨-, more, later, rfl⟩ | ⟨stuck, -⟩
      · rw [← t.after_add, Nat.add_comm 1] at later
        refine ⟨_, run_bind_eq_ok.mpr ⟨_, u, repeated_eq_ok.mpr (Or.inr ⟨_, _, first,
          Or.inl ⟨shorter _, more, later, rfl⟩⟩), rfl⟩, ?_⟩
        have data : String.ofList (t.cursor.rest.take (n + 1 + 1)) =
            "\n" ++ String.ofList ((t.after 1).cursor.rest.take (n + 1)) := by
          rw [h, rest, List.take_succ_cons, ← String.toList_inj]
          simp
        rw [data]
        exact .into _ _ _ _
      · exact absurd progress stuck

end Break

/-- Only the characters of a text count. -/
theorem parse_of_toList {source : String} {text : List Char} (h : source.toList = text) :
    parse source = (wholeDocument ⟨⟨text, .start⟩, none⟩).map Prod.fst := by
  subst h
  rw [parse]
  cases h : wholeDocument ⟨.ofText source .start, none⟩ <;> exact congrArg (Except.map Prod.fst) h.symm

theorem parse_eq_ok {source : String} {document : Document} :
    parse source = .ok document ↔
      ∃ children s, (atLevel maxNesting).children false ⟨.ofText source .start, none⟩ =
        .ok ((children, .endOfText), s) ∧ document = ⟨s.script, children⟩ := by
  rw [parse_of_toList rfl, map_eq_ok]
  constructor
  · rintro ⟨⟨found, u⟩, ran, rfl⟩
    obtain ⟨⟨children, ended⟩, s, read, rest⟩ := run_bind_eq_ok.mp ran
    cases ended with
    | endOfText =>
      cases rest
      exact ⟨children, _, read, rfl⟩
    | _ => cases rest
  · rintro ⟨children, s, read, rfl⟩
    exact ⟨(_, s), run_bind_eq_ok.mpr ⟨_, s, read, rfl⟩, rfl⟩

theorem hasNoTag_nil : HasNoTag [] := by
  intro c member
  cases member

/-- A parsed tree is sound. -/
theorem areSound_of_parse {source : String} {document : Document} (h : parse source = .ok document) :
    AreSound document.children maxNesting := by
  obtain ⟨children, s, ran, rfl⟩ := parse_eq_ok.mp h
  obtain ⟨w, agree, -⟩ := ((areSteady_atLevel hasNoTag_nil maxNesting).children false).related ran
  exact agree.sound

/-! A script region in front of a document. -/

theorem name_word {what word : String} {s : Source} {c : Char} {more : List Char}
    (h : s.cursor.rest = word.toList ++ c :: more)
    (letters : ∀ c ∈ word.toList, isNameChar c = true) (stops : isNameChar c = false)
    (some : word.isEmpty = false) : name what s = .ok (word, s.after word.length) := by
  have run : s.cursor.rest.takeWhile isNameChar = word.toList := by
    rw [h, List.takeWhile_append_of_pos letters, List.takeWhile_cons, stops]
    simp
  have text : String.ofList (s.cursor.rest.take word.toList.length) = word := by
    rw [h, List.take_left]
    exact String.ofList_toList
  have taken : takeWhile isNameChar s =
      .ok (String.ofList (s.cursor.rest.take (s.cursor.rest.takeWhile isNameChar).length),
        s.after (s.cursor.rest.takeWhile isNameChar).length) := rfl
  rw [run, text] at taken
  refine run_bind_eq_ok.mpr ⟨_, _, taken, ?_⟩
  rw [some]
  rfl

theorem skipBlanks_visible {s : Source} {c : Char} {more : List Char} (h : s.cursor.rest = c :: more)
    (visible : Text.isBlank c = false) : skipBlanks s = .ok ((), s.after 0) := by
  show Except.ok ((), s.after (s.cursor.rest.takeWhile Text.isBlank).length) = _
  rw [h, List.takeWhile_cons, visible]
  rfl

theorem attributes_none {s : Source} {more : List Char} (h : s.cursor.rest = '>' :: more) :
    attributes s = .ok (([], false), s.after 1) := by
  rw [attributes_eq]
  refine repeated_eq_ok.mpr (Or.inl ⟨?_, rfl⟩)
  rw [attributeStep_eq (skipBlanks_visible h (by decide)), Source.after_zero, h]
  rfl

theorem rawText_script (noTag : HasNoTag insertion) {p : Position} {s : Source} {more : List Char}
    (h : s.cursor.rest = insertion ++ ("</script>".toList ++ more)) :
    rawText "script" p s =
      .ok (String.ofList insertion, s.after (insertion.length + 9)) := by
  have mark : "</".toList ++ "script".toList = '<' :: "/script".toList := rfl
  have here : distance? ('<' :: "/script".toList) ("</script>".toList ++ more) = some 0 := rfl
  have last : ((s.after insertion.length).after 8).cursor.rest = '>' :: more := by
    rw [← s.after_add, Source.after_rest, h, List.drop_length_add_append]
    rfl
  rw [rawText, rest_bind, mark, h, distance?_append noTag, here, Option.map_some, Nat.zero_add]
  have taken : s.cursor.rest.take insertion.length = insertion := by
    rw [h, List.take_left']
    rfl
  refine run_bind_eq_ok.mpr ⟨_, s.after insertion.length, rfl, ?_⟩
  refine run_bind_eq_ok.mpr ⟨(), (s.after insertion.length).after 8, rfl, ?_⟩
  refine run_bind_eq_ok.mpr ⟨(), _, skipBlanks_visible last (by decide), ?_⟩
  rw [Source.after_zero]
  refine run_bind_eq_ok.mpr ⟨(), _, expectChar_cons '>' last, ?_⟩
  rw [taken, ← s.after_add, ← s.after_add]
  rfl

/-- The script region that stands in front of a document. -/
def frontRegion (insertion : List Char) : ScriptRegion :=
  ⟨.start, [], Position.start.advance "<script>".toList, String.ofList insertion⟩

variable {deeper : Position → Bool → Parser (List Node × Terminator)}
variable {ifBlock : Bool → String → Position → Parser Node}

theorem step_script (noTag : HasNoTag insertion) {s : Source} {more : List Char}
    (fresh : s.script = none) (start : s.cursor.pos = .start)
    (h : s.cursor.rest = "<script>".toList ++ (insertion ++ ("</script>".toList ++ more))) :
    step deeper ifBlock false s = .ok (.inl none,
      { s.after (insertion.length + 17) with script := some (frontRegion insertion) }) := by
  have first : s.cursor.rest = '<' :: 's' :: ("cript>".toList ++
      (insertion ++ ("</script>".toList ++ more))) := h
  have named : name "tag name" (s.after 1) = .ok ("script", (s.after 1).after 6) := by
    have word : (s.after 1).cursor.rest =
        "script".toList ++ '>' :: (insertion ++ ("</script>".toList ++ more)) := by
      rw [Source.after_rest, h]
      rfl
    exact name_word word (by decide) (by decide) (by decide)
  have ended : ((s.after 1).after 6).cursor.rest = '>' :: (insertion ++ ("</script>".toList ++ more)) := by
    rw [← s.after_add, Source.after_rest, h]
    rfl
  have inside : (((s.after 1).after 6).after 1).cursor.rest = insertion ++ ("</script>".toList ++ more) := by
    rw [Source.after_rest, ended]
    rfl
  have origin : (((s.after 1).after 6).after 1).cursor.pos =
      Position.start.advance "<script>".toList := by
    rw [← s.after_add, ← s.after_add]
    show s.cursor.pos.advance (s.cursor.rest.take 8) = _
    rw [start, h]
    rfl
  have behind : (((s.after 1).after 6).after 1).after (insertion.length + 9) =
      s.after (insertion.length + 17) := by
    rw [← s.after_add, ← s.after_add, ← s.after_add]
    congr 1
    omega
  have region : rawRegion "script" .start false ((s.after 1).after 6) = .ok (none,
      { s.after (insertion.length + 17) with script := some (frontRegion insertion) }) := by
    rw [rawRegion, if_neg Bool.false_ne_true]
    refine run_bind_eq_ok.mpr ⟨_, _, attributes_none ended, ?_⟩
    refine run_bind_eq_ok.mpr ⟨_, _, rfl, ?_⟩
    refine run_bind_eq_ok.mpr ⟨_, _, rawText_script noTag inside, ?_⟩
    dsimp only
    rw [if_neg (by decide), origin, behind]
    obtain ⟨cursor, script⟩ := s
    obtain rfl : script = none := fresh
    rfl
  have element : element deeper false s = .ok (none,
      { s.after (insertion.length + 17) with script := some (frontRegion insertion) }) := by
    have lowered : "script".toLower = "script" := by decide +kernel
    rw [element_run, named]
    show afterName deeper false s.cursor.pos "script" ((s.after 1).after 6) = _
    rw [afterName, lowered, if_pos (Or.inl rfl), start, region]
  rw [step_run, first]
  show (do return .inl (← Productions.element deeper false) : Parser (Option Node ⊕ Terminator)) s = _
  rw [run_bind, element]
  rfl

/-- A document behind a script region and a line feed is parsed as it is by itself. -/
theorem parse_front (noTag : HasNoTag insertion) {source text : String} {document : Document}
    (h : parse source = .ok document) (scriptless : document.script = none)
    (shape : text.toList =
      "<script>".toList ++ (insertion ++ ("</script>".toList ++ '\n' :: source.toList))) :
    ∃ children others, parse text = .ok ⟨some (frontRegion insertion), children⟩ ∧
      Broken children others ∧ AgreeNodes maxNesting document.children others := by
  obtain ⟨found, s', ran, rfl⟩ := parse_eq_ok.mp h
  obtain ⟨k, -, rfl, follows⟩ : Followed .wide 0 (AgreeChildren (AgreeNodes maxNesting))
      ((atLevel maxNesting).children false) _ (found, .endOfText) s' := by
    rcases (areSteady_atLevel noTag maxNesting).children false _ _ s' ran with followed | meets
    · exact followed
    · obtain ⟨-, -, -, region, met, -⟩ := meets
      rw [show s'.script = none from scriptless] at met
      cases met
  have first := @step_script insertion (fun _ => (atLevel 63).children) (branches (atLevel 63)) noTag
    ⟨.ofText text .start, none⟩ ('\n' :: source.toList) rfl rfl shape
  generalize start : (⟨.ofText text .start, none⟩ : Source) = t at first
  -- What is left behind the region.
  generalize behind : ({ t.after (insertion.length + 17) with
    script := some (frontRegion insertion) } : Source) = u at first
  have left : u.cursor.rest = '\n' :: source.toList := by
    have size : insertion.length + 17 = ("<script>".toList ++ insertion ++ "</script>".toList).length := by
      simp
    rw [← behind, ← start]
    show text.toList.drop (insertion.length + 17) = _
    rw [shape, size, ← List.append_assoc, ← List.append_assoc, List.drop_left]
  obtain ⟨⟨others, ended⟩, again, agree, ends⟩ := follows (u.after 1) (by
    rw [Source.after_rest, left]
    exact .refl _ _)
  cases ends
  obtain ⟨broken, ran', breaks⟩ := childrenUntil_break left again
  refine ⟨broken, others, parse_eq_ok.mpr ⟨broken, (u.after 1).after k, ?_, ?_⟩, breaks, agree⟩
  · show childrenUntil (fun _ => (atLevel 63).children) (branches (atLevel 63)) false _ = _
    rw [childrenUntil_eq] at ran' ⊢
    obtain ⟨steps, v, repeats, last⟩ := run_bind_eq_ok.mp ran'
    refine run_bind_eq_ok.mpr ⟨(none :: steps.1, steps.2), v, ?_, last⟩
    rw [start]
    refine repeated_eq_ok.mpr (Or.inr ⟨none, u, first, Or.inl ⟨?_, steps.1, repeats, rfl⟩⟩)
    rw [left, ← start]
    show _ < text.toList.length
    rw [shape]
    simp
    omega
  · rw [← behind]
    rfl

/-! Preprocessing. -/

/-- What is put into the script region: the standard imports on lines of their own. -/
def importing : List Char := '\n' :: (standardImports.toList ++ ['\n'])

theorem importing_append (rest : List Char) :
    importing ++ rest = '\n' :: (standardImports.toList ++ '\n' :: rest) := by
  rw [importing, List.cons_append, List.append_assoc, List.singleton_append]

theorem preprocess_front {source : String} {document : Document} (h : parse source = .ok document)
    (scriptless : document.script = none) :
    ∃ text, preprocess source = .ok text ∧ text.toList =
      "<script>".toList ++ (importing ++ ("</script>".toList ++ '\n' :: source.toList)) := by
  refine ⟨"<script>\n" ++ standardImports ++ "\n</script>\n" ++ source, ?_, ?_⟩
  · rw [preprocess, h]
    simp only [bind, Except.bind, scriptless]
    rfl
  · simp [importing]

theorem preprocess_inside {source : String} {document : Document} {region : ScriptRegion}
    (h : parse source = .ok document) (met : document.script = some region) :
    ∃ text, preprocess source = .ok text ∧ text.toList =
      source.toList.take region.origin.offset ++
        (importing ++ source.toList.drop region.origin.offset) := by
  refine ⟨String.ofList (source.toList.take region.origin.offset) ++ "\n" ++ standardImports ++ "\n" ++
    String.ofList (source.toList.drop region.origin.offset), ?_, ?_⟩
  · rw [preprocess, h]
    simp only [bind, Except.bind, met]
    rfl
  · simp [importing]

theorem standardImports_eq : standardImports =
    "import Chart from \"Chart\";\nimport Filter from \"Filter\";\nimport Grid from \"Grid\";" := by
  decide

theorem importing_eq : importing =
    "\nimport Chart from \"Chart\";\nimport Filter from \"Filter\";\nimport Grid from \"Grid\";\n".toList := by
  rw [importing, standardImports_eq]
  exact (congrArg (fun lines => '\n' :: (lines ++ ['\n'])) String.toList_ofList).trans
    String.toList_ofList.symm

theorem hasNoTag_importing : HasNoTag importing := by
  rw [importing_eq.trans String.toList_ofList]
  unfold HasNoTag
  decide

/-- The characters of a document with the imports in it. -/
def withImports (imports letters : List Char) : Option ScriptRegion → List Char
  | some region =>
    letters.take region.origin.offset ++ (imports ++ letters.drop region.origin.offset)
  | none => "<script>".toList ++ (imports ++ ("</script>".toList ++ '\n' :: letters))

/-- A document is preprocessed into the text that its characters with the imports spell. -/
theorem preprocess_of_toList {source text : String} {imports : List Char} (lines : importing = imports)
    (spelled : (parse source).toOption.any fun document =>
      text.toList = withImports imports source.toList document.script) :
    preprocess source = .ok text := by
  subst lines
  obtain ⟨document, parsed, spelled⟩ := (Option.any_eq_true _ _).mp spelled
  have spelled := of_decide_eq_true spelled
  have parsed := toOption_eq_some.mp parsed
  cases met : document.script with
  | none =>
    obtain ⟨other, prepared, shape⟩ := preprocess_front parsed met
    rw [met] at spelled
    rw [prepared, String.toList_inj.mp (shape.trans spelled.symm)]
  | some region =>
    obtain ⟨other, prepared, shape⟩ := preprocess_inside parsed met
    rw [met] at spelled
    rw [prepared, String.toList_inj.mp (shape.trans spelled.symm)]

/-- A document with a script region, and its text with an insertion at the start of the region. -/
theorem carries_of_parse (noTag : HasNoTag insertion) {source text : String}
    {children : List Node} {region : ScriptRegion} (h : parse source = .ok ⟨some region, children⟩)
    (shape : text.toList = source.toList.take region.origin.offset ++
      (insertion ++ source.toList.drop region.origin.offset)) :
    ∃ s, Carries insertion (AgreeChildren (AgreeNodes maxNesting)) ((atLevel maxNesting).children false)
      ⟨.ofText source .start, none⟩ (children, .endOfText) s region ⟨.ofText text .start, none⟩ := by
  obtain ⟨children, s, ran, same⟩ := parse_eq_ok.mp h
  obtain ⟨met, rfl⟩ := Document.mk.inj same
  rcases (areSteady_atLevel noTag maxNesting).children false _ _ s ran with
    followed | ⟨-, -, -, region', met', ahead, there⟩
  · rw [show s.script = none from followed.script_eq] at met
    cases met
  · rw [← met] at met'
    obtain rfl := Option.some.inj met'
    have within : region.origin.offset ≤ source.toList.length := by
      have bound := ahead.within
      simpa [Cursor.ofText, Position.start] using bound
    refine ⟨s, there _ ⟨_, _, (List.take_append_drop _ _).symm, shape, ?_⟩⟩
    show 0 + (source.toList.take region.origin.offset).length = _
    rw [List.length_take, Nat.min_eq_left within, Nat.zero_add]

/-- An insertion at the start of the script region stands before its body. -/
theorem script_of_inserted (noTag : HasNoTag insertion) {source text : String}
    {document other : Document} {region : ScriptRegion} (h : parse source = .ok document)
    (met : document.script = some region)
    (shape : text.toList = source.toList.take region.origin.offset ++
      (insertion ++ source.toList.drop region.origin.offset))
    (again : parse text = .ok other) :
    ∃ region', other.script = some region' ∧
      (region'.raw.toList = insertion ++ region.raw.toList ∨ region'.raw = "") := by
  obtain ⟨script, children⟩ := document
  obtain rfl : script = some region := met
  obtain ⟨s, carries⟩ := carries_of_parse noTag h shape
  obtain ⟨others, t, ran, rfl⟩ := parse_eq_ok.mp again
  exact carries.meets _ t ran

/-- Unless the tag of the region closes itself, the document is parsed as before, and the insertion stands
before the body of the region. -/
theorem parse_inserted (noTag : HasNoTag insertion) {source text : String}
    {children : List Node} {region : ScriptRegion} (h : parse source = .ok ⟨some region, children⟩)
    (shape : text.toList = source.toList.take region.origin.offset ++
      (insertion ++ source.toList.drop region.origin.offset))
    (isOpen : ¬ "/>".toList <:+ source.toList.take region.origin.offset) :
    ∃ others region', parse text = .ok ⟨some region', others⟩ ∧
      AgreeNodes maxNesting children others ∧
      region'.raw.toList = insertion ++ region.raw.toList := by
  obtain ⟨s, carries⟩ := carries_of_parse noTag h shape
  obtain ⟨⟨others, ended⟩, t, ran, ⟨agree, ends⟩, -, region', met, raw⟩ := carries.resumes rfl isOpen
  cases ends
  exact ⟨others, region', parse_eq_ok.mpr ⟨others, t, ran, by rw [met]⟩, agree, raw⟩

/-- The same nodes up to places, and up to a line feed in front of the first ones. -/
def SameMarkup (processed children : List Node) : Prop :=
  ∃ others, (processed = others ∨ Broken processed others) ∧
    unplacedAll others = unplacedAll children

/-- The text before the body of a script region, if there is one, does not end like a tag that closes
itself. -/
def HasOpenScript (source : String) (document : Document) : Prop :=
  ∀ region, document.script = some region → ¬ "/>".toList <:+ source.toList.take region.origin.offset

instance (source : String) (document : Document) : Decidable (HasOpenScript source document) :=
  match h : document.script with
  | none => .isTrue fun region met => by rw [h] at met; cases met
  | some region =>
    decidable_of_iff (¬ "/>".toList <:+ source.toList.take region.origin.offset) (by
      constructor
      · intro isOpen other met
        rw [h] at met
        exact Option.some.inj met ▸ isOpen
      · intro isOpen
        exact isOpen region h)

/-- A document is preprocessed into one with the same markup, whose script region holds the imports and then
what it held before. -/
theorem exists_preprocessed {source : String} {document : Document} (h : parse source = .ok document)
    (isOpen : HasOpenScript source document) :
    ∃ text processed region, preprocess source = .ok text ∧ parse text = .ok processed ∧
      SameMarkup processed.children document.children ∧ processed.script = some region ∧
      region.raw.toList = importing ++ document.script.elim [] fun old => old.raw.toList := by
  obtain ⟨script, children⟩ := document
  cases script with
  | none =>
    obtain ⟨text, prepared, shape⟩ := preprocess_front h rfl
    obtain ⟨broken, others, again, breaks, agree⟩ := parse_front hasNoTag_importing h rfl shape
    refine ⟨text, _, _, prepared, again, ⟨others, Or.inr breaks, agree.same.symm⟩, rfl, ?_⟩
    rw [Option.elim_none, List.append_nil]
    exact String.toList_ofList
  | some old =>
    obtain ⟨text, prepared, shape⟩ := preprocess_inside h rfl
    obtain ⟨others, region, again, agree, raw⟩ :=
      parse_inserted hasNoTag_importing h shape (isOpen old rfl)
    exact ⟨text, _, region, prepared, again, ⟨others, Or.inl rfl, agree.same.symm⟩, rfl, raw⟩

/-- The script region of a preprocessed document holds the standard imports and then what it held
before, or nothing. -/
theorem script_of_preprocess {source text : String} {document processed : Document}
    (h : parse source = .ok document) (prepared : preprocess source = .ok text)
    (again : parse text = .ok processed) :
    ∃ region, processed.script = some region ∧
      (region.raw = "" ∨ (document.script = none ∧ region.raw.toList = importing) ∨
        ∃ old, document.script = some old ∧ region.raw.toList = importing ++ old.raw.toList) := by
  cases met : document.script with
  | none =>
    obtain ⟨text', prepared', shape⟩ := preprocess_front h met
    rw [prepared] at prepared'
    cases prepared'
    obtain ⟨children, -, parsed, -⟩ := parse_front hasNoTag_importing h met shape
    rw [again] at parsed
    cases parsed
    exact ⟨_, rfl, Or.inr (Or.inl ⟨rfl, String.toList_ofList⟩)⟩
  | some old =>
    obtain ⟨text', prepared', shape⟩ := preprocess_inside h met
    rw [prepared] at prepared'
    cases prepared'
    obtain ⟨region, found, raw | raw⟩ := script_of_inserted hasNoTag_importing h met shape again
    · exact ⟨region, found, Or.inr (Or.inr ⟨old, rfl, raw⟩)⟩
    · exact ⟨region, found, Or.inl raw⟩

end Dashboard.Markup
