import Dashboard.Text.Blank
import Mathlib.Data.List.TakeWhile

/-!
Trimming, lines and cuts. A stretch that begins and ends with a character other than a blank is its
own trimmed form, whatever blanks stand around it; a text that is written line by line is read back
line by line, and so are texts joined by line feeds, each by its own lines.
-/
namespace Dashboard.Text

/-- What is claimed of every character in a text is decided along the text, not along all characters. -/
instance (priority := high) decidableForallMem (text : List Char) (p : Char → Prop) [DecidablePred p] :
    Decidable (∀ c ∈ text, p c) :=
  List.decidableBAll p text

/-- The stretch is not empty, and no blank stands at either end. -/
def IsTight (text : List Char) : Prop :=
  (∃ c, text.head? = some c ∧ isBlank c = false) ∧
    ∃ c, text.getLast? = some c ∧ isBlank c = false

theorem dropWhile_isBlank_append {blanks text : List Char} (h : blanks.all isBlank = true) :
    (blanks ++ text).dropWhile isBlank = text.dropWhile isBlank := by
  induction blanks with
  | nil => rfl
  | cons c more ih =>
    simp only [List.all_cons, Bool.and_eq_true] at h
    simp [h.1, ih h.2]

theorem trimStart_of_head? {text : List Char} {c : Char} (head : text.head? = some c)
    (visible : isBlank c = false) : trimStart text = text := by
  cases text with
  | nil => simp at head
  | cons d more =>
    obtain rfl : d = c := by simpa using head
    simp [trimStart, visible]

theorem trimEnd_of_getLast? {text : List Char} {c : Char} (last : text.getLast? = some c)
    (visible : isBlank c = false) : trimEnd text = text := by
  have head : text.reverse.head? = some c := by rw [List.head?_reverse, last]
  have start : text.reverse.dropWhile isBlank = text.reverse :=
    trimStart_of_head? head visible
  rw [trimEnd, start, List.reverse_reverse]

theorem IsTight.trimStart {text : List Char} (tight : IsTight text) : trimStart text = text := by
  obtain ⟨⟨c, head, visible⟩, _⟩ := tight
  exact trimStart_of_head? head visible

theorem IsTight.trimEnd {text : List Char} (tight : IsTight text) : trimEnd text = text := by
  obtain ⟨_, c, last, visible⟩ := tight
  exact trimEnd_of_getLast? last visible

theorem IsTight.trim {text : List Char} (tight : IsTight text) : trim text = text := by
  rw [Text.trim, tight.trimStart, tight.trimEnd]

theorem trimEnd_append_blanks {text blanks : List Char} (h : blanks.all isBlank = true) :
    trimEnd (text ++ blanks) = trimEnd text := by
  rw [trimEnd, trimEnd, List.reverse_append, dropWhile_isBlank_append (by simpa using h)]

theorem trim_blanks_append {blanks text : List Char} (h : blanks.all isBlank = true) :
    trim (blanks ++ text) = trim text := by
  rw [trim, trim, trimStart, dropWhile_isBlank_append h, ← trimStart]

theorem trim_append_blanks {text blanks : List Char} (h : blanks.all isBlank = true) :
    trim (text ++ blanks) = trim text := by
  rw [trim, trim, trimStart, trimStart, List.dropWhile_append]
  split_ifs with none
  · have spent : blanks.dropWhile isBlank = [] := by
      rw [List.dropWhile_eq_nil_iff]
      simpa using h
    rw [spent, List.isEmpty_iff.mp none]
  · exact trimEnd_append_blanks h

/-- What trimming takes away are blanks at either end. -/
theorem exists_trim (text : List Char) : ∃ before after, before.all isBlank = true ∧
    after.all isBlank = true ∧ text = before ++ trim text ++ after := by
  refine ⟨text.takeWhile isBlank, ((trimStart text).reverse.takeWhile isBlank).reverse,
    List.all_takeWhile, ?_, ?_⟩
  · rw [List.all_reverse]
    exact List.all_takeWhile
  · have ending : trimEnd (trimStart text) ++ ((trimStart text).reverse.takeWhile isBlank).reverse =
        trimStart text := by
      rw [trimEnd, ← List.reverse_append, List.takeWhile_append_dropWhile, List.reverse_reverse]
    rw [List.append_assoc, trim, ending, trimStart, List.takeWhile_append_dropWhile]

theorem isInfix_trim (text : List Char) : trim text <:+: text := by
  obtain ⟨before, after, -, -, shape⟩ := exists_trim text
  exact ⟨before, after, shape.symm⟩

theorem trim_trim (text : List Char) : trim (trim text) = trim text := by
  obtain ⟨before, after, hb, ha, shape⟩ := exists_trim text
  calc trim (trim text) = trim (before ++ trim text ++ after) := by
        rw [trim_append_blanks ha, trim_blanks_append hb]
    _ = trim text := by rw [← shape]

theorem trimmed_trimmed (text : String) : trimmed (trimmed text) = trimmed text := by
  rw [trimmed, trimmed, String.toList_ofList, trim_trim]

theorem isTight_of_visible {text : List Char} (notEmpty : text ≠ [])
    (visible : ∀ c ∈ text, isBlank c = false) : IsTight text := by
  obtain ⟨c, more, rfl⟩ := List.exists_cons_of_ne_nil notEmpty
  refine ⟨⟨c, rfl, visible c (by simp)⟩, (c :: more).getLast (by simp), ?_, ?_⟩
  · exact List.getLast?_eq_some_getLast (by simp)
  · exact visible _ (List.getLast_mem _)

theorem IsTight.append {first second : List Char} (h : IsTight first) (k : IsTight second) :
    IsTight (first ++ second) := by
  obtain ⟨⟨c, head, visible⟩, _⟩ := h
  obtain ⟨_, d, last, visibleLast⟩ := k
  refine ⟨⟨c, ?_, visible⟩, d, ?_, visibleLast⟩
  · rw [List.head?_append, head]
    rfl
  · rw [List.getLast?_append, last]
    rfl

/-- What stands in the middle does not matter. -/
theorem IsTight.around {first second : List Char} (h : IsTight first) (k : IsTight second)
    (middle : List Char) : IsTight (first ++ middle ++ second) := by
  obtain ⟨⟨c, head, visible⟩, _⟩ := h
  obtain ⟨_, d, last, visibleLast⟩ := k
  refine ⟨⟨c, ?_, visible⟩, d, ?_, visibleLast⟩
  · rw [List.append_assoc, List.head?_append, head]
    rfl
  · rw [List.getLast?_append, last]
    rfl

theorem all_isBlank_replicate_space (n : Nat) : (List.replicate n ' ').all isBlank = true := by
  rw [List.all_eq_true]
  intro c member
  rw [List.eq_of_mem_replicate member]
  decide

theorem pieces_append_cons {separator : Char} {piece : List Char} (h : separator ∉ piece)
    (rest : List Char) :
    pieces separator (piece ++ separator :: rest) = piece :: pieces separator rest := by
  induction piece with
  | nil => simp [pieces]
  | cons c more ih =>
    obtain ⟨different, later⟩ : separator ≠ c ∧ separator ∉ more := by simpa using h
    rw [List.cons_append, pieces, if_neg (Ne.symm different), ih later]

theorem pieces_flatMap {separator : Char} {all : List (List Char)}
    (h : ∀ piece ∈ all, separator ∉ piece) :
    pieces separator (all.flatMap (· ++ [separator])) = all ++ [[]] := by
  induction all with
  | nil => simp [pieces]
  | cons piece more ih =>
    have tail := ih fun other member => h other (List.mem_cons_of_mem _ member)
    rw [List.flatMap_cons, List.append_assoc, List.singleton_append,
      pieces_append_cons (h piece (by simp)), tail]
    rfl

/-- Lines that are each ended by a line feed are read back, less a carriage return at their end. -/
theorem lines_flatMap {all : List (List Char)} (h : ∀ line ∈ all, '\n' ∉ line) :
    lines (all.flatMap (· ++ ['\n'])) = all.map dropReturn := by
  cases all with
  | nil => rfl
  | cons first more =>
    obtain ⟨c, rest, shape⟩ : ∃ c rest, (first :: more).flatMap (· ++ ['\n']) = c :: rest := by
      refine List.exists_cons_of_ne_nil ?_
      simp
    have split : pieces '\n' (c :: rest) = first :: more ++ [[]] := shape ▸ pieces_flatMap h
    have last : (first :: more ++ [[]]).getLast? = some [] := List.getLast?_concat
    rw [shape, lines, split, last, List.dropLast_concat]

theorem dropReturn_of_getLast? {line : List Char} {c : Char} (last : line.getLast? = some c)
    (visible : isBlank c = false) : dropReturn line = line := by
  rw [dropReturn, last]
  split
  · next same =>
    obtain rfl := Option.some.inj same
    cases visible
  · rfl

theorem exists_dropReturn (line : List Char) :
    ∃ blanks, blanks.all isBlank = true ∧ line = dropReturn line ++ blanks := by
  rw [dropReturn]
  split
  · next last =>
    obtain ⟨front, rfl⟩ := List.getLast?_eq_some_iff.mp last
    exact ⟨['\r'], by decide, by rw [List.dropLast_concat]⟩
  · exact ⟨[], rfl, (List.append_nil _).symm⟩

theorem trim_dropReturn (line : List Char) : trim (dropReturn line) = trim line := by
  obtain ⟨blanks, blank, shape⟩ := exists_dropReturn line
  have same := @trim_append_blanks (dropReturn line) _ blank
  rw [← shape] at same
  exact same.symm

/-! Texts that are joined by line feeds. -/

/-- The text ends within a line: with a character that belongs to no line break. -/
def EndsInLine (text : List Char) : Prop :=
  ∃ c, text.getLast? = some c ∧ c ≠ '\n' ∧ c ≠ '\r'

theorem pieces_ne_nil (separator : Char) (text : List Char) : pieces separator text ≠ [] := by
  induction text with
  | nil => simp [pieces]
  | cons c more ih =>
    rw [pieces]
    split_ifs
    · simp
    · split <;> simp

theorem exists_pieces_concat (separator : Char) (text : List Char) :
    ∃ front last, pieces separator text = front ++ [last] :=
  ⟨_, _, (List.dropLast_concat_getLast (pieces_ne_nil separator text)).symm⟩

theorem pieces_append_separator {separator : Char} (first rest : List Char) :
    pieces separator (first ++ separator :: rest) =
      pieces separator first ++ pieces separator rest := by
  induction first with
  | nil => simp [pieces]
  | cons c more ih =>
    rw [List.cons_append, pieces, pieces, ih]
    split_ifs
    · rfl
    · obtain ⟨piece, others, shape⟩ := List.exists_cons_of_ne_nil (pieces_ne_nil separator more)
      rw [shape]
      rfl

theorem pieces_eq_singleton {separator : Char} {piece : List Char} (h : separator ∉ piece) :
    pieces separator piece = [piece] := by
  have whole := pieces_append_cons h []
  rw [pieces_append_separator] at whole
  exact List.append_inj_left' whole rfl

/-- The last piece of one text and the first of the next are one piece of both together. -/
theorem pieces_append {separator : Char} {x y p q : List Char} {front back : List (List Char)}
    (hx : pieces separator x = front ++ [p]) (hy : pieces separator y = q :: back) :
    pieces separator (x ++ y) = front ++ (p ++ q) :: back := by
  induction x generalizing front p with
  | nil =>
    obtain ⟨rfl, rfl⟩ : front = [] ∧ p = [] := by
      cases front <;> simp_all [pieces]
    exact hy
  | cons c more ih =>
    obtain ⟨others, last, shape⟩ := exists_pieces_concat separator more
    rw [pieces, shape] at hx
    rw [List.cons_append, pieces, ih shape]
    split_ifs at hx ⊢
    · obtain ⟨rfl, rfl⟩ : [] :: others = front ∧ last = p := by
        simpa using List.append_inj' (show ([] :: others) ++ [last] = front ++ [p] from hx) rfl
      rfl
    · cases others with
      | nil =>
        obtain ⟨rfl, rfl⟩ : [] = front ∧ c :: last = p := by
          simpa using List.append_inj' (show [] ++ [c :: last] = front ++ [p] from hx) rfl
        rfl
      | cons first others =>
        obtain ⟨rfl, rfl⟩ : (c :: first) :: others = front ∧ last = p := by
          simpa using
            List.append_inj' (show ((c :: first) :: others) ++ [last] = front ++ [p] from hx) rfl
        rfl

theorem subset_of_mem_pieces {separator : Char} {text piece : List Char}
    (h : piece ∈ pieces separator text) : piece ⊆ text := by
  induction text generalizing piece with
  | nil =>
    obtain rfl : piece = [] := by simpa [pieces] using h
    exact List.nil_subset _
  | cons c more ih =>
    obtain ⟨first, others, shape⟩ := List.exists_cons_of_ne_nil (pieces_ne_nil separator more)
    rw [pieces] at h
    rw [shape] at h ih
    split_ifs at h
    · rcases List.mem_cons.mp h with rfl | member
      · exact List.nil_subset _
      · exact List.subset_cons_of_subset c (ih member)
    · rcases List.mem_cons.mp h with rfl | member
      · exact List.cons_subset_cons c (ih List.mem_cons_self)
      · exact List.subset_cons_of_subset c (ih (List.mem_cons_of_mem _ member))

/-- A piece of a text is a part of a piece of a longer one, with characters around it that come from
before and behind the text. -/
theorem exists_mem_pieces {separator : Char} {text piece : List Char}
    (h : piece ∈ pieces separator text) (before behind : List Char) :
    ∃ front back, front ⊆ before ∧ back ⊆ behind ∧
      front ++ piece ++ back ∈ pieces separator (before ++ text ++ behind) := by
  have starts (x : List Char) : ∃ first rest, pieces separator x = first :: rest :=
    List.exists_cons_of_ne_nil (pieces_ne_nil separator x)
  obtain ⟨front, inFront, joined⟩ : ∃ front, front ⊆ before ∧
      front ++ piece ∈ pieces separator (before ++ text) := by
    obtain ⟨others, last, hb⟩ := exists_pieces_concat separator before
    obtain ⟨first, rest, ht⟩ := starts text
    rw [pieces_append hb ht]
    rw [ht] at h
    rcases List.mem_cons.mp h with rfl | member
    · exact ⟨last, @subset_of_mem_pieces separator _ _ (by simp [hb]), by simp⟩
    · exact ⟨[], List.nil_subset _, by simp [member]⟩
  obtain ⟨others, last, ht⟩ := exists_pieces_concat separator (before ++ text)
  obtain ⟨first, rest, hb⟩ := starts behind
  rw [pieces_append ht hb]
  rw [ht] at joined
  rcases List.mem_append.mp joined with member | same
  · exact ⟨front, [], inFront, List.nil_subset _, by simp [List.append_nil, member]⟩
  · obtain rfl := List.mem_singleton.mp same
    exact ⟨front, first, inFront, @subset_of_mem_pieces separator _ _ (by simp [hb]),
      by simp⟩

theorem pieces_intercalate {separator : Char} {all : List (List Char)} (some : all ≠ [])
    (h : ∀ piece ∈ all, separator ∉ piece) : pieces separator ([separator].intercalate all) = all := by
  induction all with
  | nil => exact absurd rfl some
  | cons first more ih =>
    obtain ⟨here, later⟩ := List.forall_mem_cons.mp h
    cases more with
    | nil =>
      rw [List.intercalate_singleton, pieces_eq_singleton here]
    | cons second others =>
      rw [List.intercalate_cons_cons, List.append_assoc, List.singleton_append,
        pieces_append_cons here, ih (List.cons_ne_nil _ _) later]

/-- A text that ends otherwise than with the separator ends with its last piece. -/
theorem exists_pieces {separator c : Char} {text : List Char} (last : text.getLast? = some c)
    (other : c ≠ separator) : ∃ front piece, pieces separator text = front ++ [piece] ∧
      piece.getLast? = some c := by
  induction text with
  | nil => cases last
  | cons d more ih =>
    cases more with
    | nil =>
      obtain rfl : d = c := by simpa using last
      exact ⟨[], [d], by simp [pieces, other], rfl⟩
    | cons e others =>
      obtain ⟨front, piece, shape, ending⟩ := ih (by simpa using last)
      rw [pieces, shape]
      split_ifs
      · exact ⟨[] :: front, piece, rfl, ending⟩
      · cases front with
        | nil =>
          obtain ⟨f, letters, rfl⟩ : ∃ f letters, piece = f :: letters :=
            List.exists_cons_of_ne_nil (by rintro rfl; cases ending)
          exact ⟨[], d :: f :: letters, rfl, by simpa using ending⟩
        | cons first front => exact ⟨(d :: first) :: front, piece, rfl, ending⟩

theorem lines_of_pieces {text last : List Char} {front : List (List Char)}
    (shape : pieces '\n' text = front ++ [last]) :
    lines text = front.map dropReturn ++ if last = [] then [] else [last] := by
  cases text with
  | nil =>
    obtain ⟨rfl, rfl⟩ : front = [] ∧ last = [] := by
      cases front <;> simp_all [pieces]
    rfl
  | cons c more =>
    rw [lines, shape, List.dropLast_concat, List.getLast?_concat]
    cases last <;> simp

theorem pieces_eq_nil {separator : Char} {text : List Char} (h : pieces separator text = [[]]) :
    text = [] := by
  cases text with
  | nil => rfl
  | cons c more =>
    obtain ⟨first, others, shape⟩ := List.exists_cons_of_ne_nil (pieces_ne_nil separator more)
    rw [pieces, shape] at h
    split_ifs at h <;> simp at h

/-- A text has a line unless it is empty. -/
theorem lines_ne_nil {text : List Char} (some : text ≠ []) : lines text ≠ [] := by
  have shape := (List.dropLast_concat_getLast (pieces_ne_nil '\n' text)).symm
  rw [lines_of_pieces shape]
  by_cases single : (pieces '\n' text).dropLast = []
  · rw [single, List.nil_append] at shape
    rw [if_neg]
    · simp
    · intro empty
      rw [empty] at shape
      exact some (pieces_eq_nil shape)
  · intro none
    exact single (List.map_eq_nil_iff.mp (List.append_eq_nil_iff.mp none).1)

/-- A line feed behind a text ends its last line; the lines of what follows are its own. -/
theorem lines_append_break (first rest : List Char) :
    lines (first ++ '\n' :: rest) = (pieces '\n' first).map dropReturn ++ lines rest := by
  obtain ⟨others, last, shape⟩ := exists_pieces_concat '\n' rest
  have whole : pieces '\n' (first ++ '\n' :: rest) = pieces '\n' first ++ others ++ [last] := by
    rw [pieces_append_separator, shape, List.append_assoc]
  rw [lines_of_pieces whole, lines_of_pieces shape, List.map_append, List.append_assoc]

theorem lines_append_lineFeed {first : List Char} (ended : EndsInLine first) (rest : List Char) :
    lines (first ++ '\n' :: rest) = lines first ++ lines rest := by
  obtain ⟨c, last, noFeed, noReturn⟩ := ended
  obtain ⟨front, piece, shape, ending⟩ := exists_pieces last noFeed
  have kept : dropReturn piece = piece := by
    rw [dropReturn, ending]
    split
    · next same => exact absurd (Option.some.inj same) noReturn
    · rfl
  have some : piece ≠ [] := by
    rintro rfl
    cases ending
  rw [lines_append_break, lines_of_pieces shape, if_neg some, shape, List.map_append, List.map_singleton,
    kept]

/-- Joined by line feeds, texts that end within a line keep their lines. -/
theorem lines_intercalate {all : List (List Char)} (ended : ∀ text ∈ all, EndsInLine text) :
    lines (['\n'].intercalate all) = all.flatMap lines := by
  induction all with
  | nil => rfl
  | cons first more ih =>
    obtain ⟨here, later⟩ := List.forall_mem_cons.mp ended
    cases more with
    | nil => simp
    | cons second others =>
      rw [List.intercalate_cons_cons, List.append_assoc, List.singleton_append,
        lines_append_lineFeed here, ih later]
      exact List.flatMap_cons.symm

theorem lines_of_lineFeed_not_mem {text : List Char} (ended : EndsInLine text)
    (h : '\n' ∉ text) : lines text = [text] := by
  obtain ⟨c, last, -, -⟩ := ended
  have some : text ≠ [] := by
    rintro rfl
    cases last
  have shape : pieces '\n' text = [] ++ [text] := pieces_eq_singleton h
  rw [lines_of_pieces shape, if_neg some]
  rfl

theorem separator_not_mem_pieces {separator : Char} {text piece : List Char}
    (h : piece ∈ pieces separator text) : separator ∉ piece := by
  induction text generalizing piece with
  | nil =>
    obtain rfl : piece = [] := by simpa [pieces] using h
    simp
  | cons c more ih =>
    rw [pieces] at h
    split_ifs at h with same
    · rcases List.mem_cons.mp h with rfl | member
      · simp
      · exact ih member
    · obtain ⟨first, others, shape⟩ := List.exists_cons_of_ne_nil (pieces_ne_nil separator more)
      rw [shape] at h ih
      rcases List.mem_cons.mp h with rfl | member
      · have free : separator ∉ first := ih (by simp)
        simp [Ne.symm same, free]
      · exact ih (List.mem_cons_of_mem _ member)

/-- A line is a piece between line feeds, up to a carriage return at its end. -/
theorem exists_piece_of_mem_lines {text line : List Char} (h : line ∈ lines text) :
    ∃ piece ∈ pieces '\n' text, line = piece ∨ line = dropReturn piece := by
  obtain ⟨front, last, shape⟩ := exists_pieces_concat '\n' text
  rw [lines_of_pieces shape] at h
  rw [shape]
  rcases List.mem_append.mp h with ended | final
  · obtain ⟨piece, member, rfl⟩ := List.mem_map.mp ended
    exact ⟨piece, List.mem_append_left _ member, Or.inr rfl⟩
  · split_ifs at final
    · cases final
    · obtain rfl := List.mem_singleton.mp final
      exact ⟨line, List.mem_append_right _ (List.mem_singleton_self _), Or.inl rfl⟩

theorem lineFeed_not_mem_lines {text line : List Char} (h : line ∈ lines text) : '\n' ∉ line := by
  have shape := (List.dropLast_concat_getLast (pieces_ne_nil '\n' text)).symm
  rw [lines_of_pieces shape] at h
  rcases List.mem_append.mp h with ended | last
  · obtain ⟨piece, member, rfl⟩ := List.mem_map.mp ended
    have free := separator_not_mem_pieces (List.dropLast_subset _ member)
    rw [dropReturn]
    split
    · exact fun member' => free (List.dropLast_subset _ member')
    · exact free
  · split_ifs at last
    · cases last
    · obtain rfl := List.mem_singleton.mp last
      exact separator_not_mem_pieces (List.getLast_mem _)

/-- The lines of the texts are the texts themselves exactly where none has a line feed in it. -/
theorem flatMap_lines_eq_self {all : List (List Char)} (ended : ∀ text ∈ all, EndsInLine text) :
    all.flatMap lines = all ↔ ∀ text ∈ all, '\n' ∉ text := by
  constructor
  · intro same text member
    rw [← same] at member
    obtain ⟨_, -, line⟩ := List.mem_flatMap.mp member
    exact lineFeed_not_mem_lines line
  · intro free
    induction all with
    | nil => rfl
    | cons first more ih =>
      obtain ⟨here, later⟩ := List.forall_mem_cons.mp ended
      obtain ⟨plain, others⟩ := List.forall_mem_cons.mp free
      rw [List.flatMap_cons, lines_of_lineFeed_not_mem here plain, ih later others]
      rfl

instance (text : List Char) : Decidable (EndsInLine text) :=
  match last : text.getLast? with
  | none => .isFalse fun ⟨_, found, _⟩ => nomatch last.symm.trans found
  | some c => decidable_of_iff (c ≠ '\n' ∧ c ≠ '\r')
    ⟨fun plain => ⟨c, last, plain⟩, fun ⟨_, found, plain⟩ =>
      Option.some.inj (last.symm.trans found) ▸ plain⟩

theorem EndsInLine.append {text : List Char} (ended : EndsInLine text) (front : List Char) :
    EndsInLine (front ++ text) := by
  obtain ⟨c, last, plain⟩ := ended
  exact ⟨c, by rw [List.getLast?_append, last]; rfl, plain⟩

/-! Words. -/

/-- A character in front of a text joins its first word, or ends it when it is blank. -/
def stepWord (c : Char) (acc : List Char × List (List Char)) : List Char × List (List Char) :=
  if isBlank c then ([], if acc.1.isEmpty then acc.2 else acc.1 :: acc.2) else (c :: acc.1, acc.2)

theorem words_eq (text : List Char) :
    words text = (stepWord ' ' (text.foldr stepWord ([], []))).2 := rfl

theorem ne_nil_of_mem_stepWord {text word : List Char}
    (h : word ∈ (text.foldr stepWord ([], [])).2) : word ≠ [] := by
  induction text with
  | nil => cases h
  | cons c more ih =>
    rw [List.foldr_cons, stepWord] at h
    split_ifs at h with blank empty
    · exact ih h
    · rcases List.mem_cons.mp h with rfl | member
      · simpa using empty
      · exact ih member
    · exact ih h

theorem foldr_stepWord_eq_nil (text : List Char) :
    text.foldr stepWord ([], []) = ([], []) ↔ text.all isBlank = true := by
  induction text with
  | nil => simp
  | cons c more ih =>
    rw [List.foldr_cons, List.all_cons, Bool.and_eq_true, ← ih, stepWord]
    generalize more.foldr stepWord ([], []) = acc
    obtain ⟨current, done⟩ := acc
    by_cases blank : isBlank c = true
    · cases current <;> simp [blank]
    · simp [blank]

theorem ne_nil_of_mem_words {text word : List Char} (h : word ∈ words text) : word ≠ [] := by
  refine @ne_nil_of_mem_stepWord (' ' :: text) word ?_
  rwa [words_eq] at h

theorem words_eq_nil (text : List Char) : words text = [] ↔ text.all isBlank = true := by
  rw [words_eq, ← foldr_stepWord_eq_nil]
  generalize text.foldr stepWord ([], []) = acc
  obtain ⟨current, done⟩ := acc
  cases current <;> simp [stepWord, isBlank, inRanges, blankRanges]

/-- Collapsing leaves nothing of a blank text, and something of any other. -/
theorem isEmpty_collapsed (text : String) : (collapsed text).isEmpty = isAllBlank text := by
  rw [Bool.eq_iff_iff, isAllBlank, ← words_eq_nil, collapsed, String.isEmpty_iff,
    ← String.toList_eq_nil_iff, String.toList_ofList]
  constructor
  · intro empty
    cases found : words text.toList with
    | nil => rfl
    | cons word more =>
      have some : word ≠ [] := ne_nil_of_mem_words (by rw [found]; simp)
      rw [found] at empty
      cases more with
      | nil => exact absurd (by simpa using empty) some
      | cons => simp at empty
  · intro none
    rw [none]
    rfl

/-- A text is cut in one way only at its first mark. -/
theorem eq_of_append_mark {mark : Char} {first second rest others : List Char}
    (unmarked : mark ∉ first) (unmarked' : mark ∉ second)
    (same : first ++ mark :: rest = second ++ mark :: others) : first = second ∧ rest = others := by
  rcases List.append_eq_append_iff.mp same with ⟨more, rfl, shifted⟩ | ⟨more, rfl, shifted⟩
  · cases more with
    | nil => exact ⟨by simp, by simpa using shifted⟩
    | cons c more =>
      obtain ⟨rfl, -⟩ := List.cons.inj shifted
      simp at unmarked'
  · cases more with
    | nil => exact ⟨by simp, by simpa using shifted.symm⟩
    | cons c more =>
      obtain ⟨rfl, -⟩ := List.cons.inj shifted
      simp at unmarked

end Dashboard.Text
