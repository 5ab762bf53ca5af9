import Dashboard.Query
import Dashboard.Proofs.Text
import Dashboard.Proofs.Dictionary

/-!
The queries of two files in a row. Every line of a file is idle, opens a query or stands in the body of
one, and what has been found so far is only ever overridden; so a file that opens with a query is read
behind another as it is read alone.
-/
namespace Dashboard.Query

open Text (trim lines pieces dropReturn)

/-! What the lines of a query file are. -/

/-- The line belongs to no query: it is blank, or a marker without a name. -/
def IsIdle (line : List Char) : Prop := trim line = [] ∨ trim line = "--".toList

instance (line : List Char) : Decidable (IsIdle line) := inferInstanceAs (Decidable (_ ∨ _))

/-- The line begins with two dashes, as markers and comments do. -/
def IsDashed (line : List Char) : Prop := "--".toList <+: trim line

/-- The first line that is not idle, if there is one, names a query. -/
def OpensQuery (text : String) : Prop :=
  ∀ line, (lines text.toList).find? (fun line => ¬ IsIdle line) = some line → IsDashed line

/-- The line stands in the body of a query. -/
def IsStatement (line : List Char) : Prop := trim line ≠ [] ∧ ¬ IsDashed line

/-- A name and a body that a query file can give. -/
structure IsWritten (name body : String) : Prop where
  name_ne : name ≠ ""
  name_trimmed : Text.trimmed name = name
  body_ne : body ≠ ""
  body_trimmed : Text.trimmed body = body
  statements : ∀ line ∈ lines body.toList, IsStatement line

variable {line : List Char} {r : Reading} {base : Dictionary String}

theorem markerName?_of_append {rest : List Char} (h : trim line = "--".toList ++ rest) :
    markerName? line = some (trim rest) := by
  rw [markerName?, h, if_pos (List.isPrefixOf_iff_prefix.mpr (List.prefix_append _ _))]
  rfl

theorem markerName?_of_not_isDashed (h : ¬ IsDashed line) : markerName? line = none := by
  rw [markerName?, if_neg fun dashes => h (List.isPrefixOf_iff_prefix.mp dashes)]

/-- A marker without a name is bare: no blank stands at the end of a trimmed line. -/
theorem eq_nil_of_trim_eq_nil {rest : List Char} (h : trim line = "--".toList ++ rest)
    (nameless : trim rest = []) : rest = [] := by
  obtain ⟨before, after, hb, ha, shape⟩ := Text.exists_trim rest
  have blank : rest.all Text.isBlank = true := by
    rw [shape, nameless, List.append_nil, List.all_append, hb, ha]
    rfl
  have bare : trim line = "--".toList := by
    rw [← Text.trim_trim, h, Text.trim_append_blanks blank]
    decide
  exact List.append_cancel_left ((h.symm.trans bare).trans (List.append_nil _).symm)

theorem line_of_isIdle (h : IsIdle line) (r : Reading) : r.line line = r := by
  rcases h with blank | bare
  · have notDashed : ¬ IsDashed line := by
      rw [IsDashed, blank]
      decide
    rw [Reading.line, markerName?_of_not_isDashed notDashed]
    simp [blank]
  · rw [Reading.line, @markerName?_of_append _ [] bare]
    rfl

/-- A marker with a name ends the query that is being read and begins the next. -/
theorem exists_line_of_isDashed (dashed : IsDashed line) (named : ¬ IsIdle line) :
    ∃ name : String, name ≠ "" ∧ Text.trimmed name = name ∧
      ∀ r : Reading, r.line line = { r.close with current := some (name, []) } := by
  obtain ⟨rest, shape⟩ := dashed
  have some : trim rest ≠ [] := by
    intro nameless
    obtain rfl := eq_nil_of_trim_eq_nil shape.symm nameless
    exact named (Or.inr shape.symm)
  refine ⟨String.ofList (trim rest), ?_, ?_, fun r => ?_⟩
  · rwa [ne_eq, ← String.toList_eq_nil_iff, String.toList_ofList]
  · rw [Text.trimmed, String.toList_ofList, Text.trim_trim]
  · rw [Reading.line, markerName?_of_append shape.symm]
    split
    · next nameless => exact absurd (Option.some.inj nameless) some
    · next same =>
      obtain rfl := Option.some.inj same
      rfl
    · next none => cases none

theorem line_of_isStatement (h : IsStatement line) (r : Reading) :
    r.line line =
      { r with current := r.current.map fun query => (query.1, query.2 ++ [line]) } := by
  rw [Reading.line, markerName?_of_not_isDashed h.2]
  simp [h.1]

/-- A line is idle, or it names a query, or it stands in the body of one. -/
theorem isIdle_or (line : List Char) :
    IsIdle line ∨ (IsDashed line ∧ ¬ IsIdle line) ∨ IsStatement line := by
  by_cases idle : IsIdle line
  · exact Or.inl idle
  · by_cases dashed : IsDashed line
    · exact Or.inr (Or.inl ⟨dashed, idle⟩)
    · exact Or.inr (Or.inr ⟨fun blank => idle (Or.inl blank), dashed⟩)

/-! What is read over a dictionary overrides it. -/

/-- The same reading, with what it has found over another dictionary. -/
def Reading.over (base : Dictionary String) (r : Reading) : Reading :=
  { r with found := Dictionary.override base r.found }

theorem isOrdered_close (ordered : Dictionary.IsOrdered r.found) :
    Dictionary.IsOrdered r.close.found := by
  rw [Reading.close]
  split
  · exact ordered
  · dsimp only
    split_ifs
    · exact ordered
    · exact ordered.insert _ _

theorem isOrdered_line (ordered : Dictionary.IsOrdered r.found) (line : List Char) :
    Dictionary.IsOrdered (r.line line).found := by
  rcases isIdle_or line with idle | ⟨dashed, named⟩ | statement
  · rwa [line_of_isIdle idle]
  · obtain ⟨name, -, -, opens⟩ := exists_line_of_isDashed dashed named
    rw [opens]
    exact isOrdered_close ordered
  · rwa [line_of_isStatement statement]

theorem isOrdered_foldl_line (ordered : Dictionary.IsOrdered r.found) (all : List (List Char)) :
    Dictionary.IsOrdered (all.foldl Reading.line r).found := by
  induction all generalizing r with
  | nil => exact ordered
  | cons line more ih => exact ih (isOrdered_line ordered line)

theorem close_over (hb : Dictionary.IsOrdered base) (hr : Dictionary.IsOrdered r.found) :
    (r.over base).close = r.close.over base := by
  obtain ⟨found, current⟩ := r
  cases current with
  | none => rfl
  | some query =>
    simp only [Reading.close, Reading.over]
    split_ifs
    · rfl
    · rw [Dictionary.override_insert hb hr]

theorem line_over (hb : Dictionary.IsOrdered base) (hr : Dictionary.IsOrdered r.found)
    (line : List Char) : (r.over base).line line = (r.line line).over base := by
  rcases isIdle_or line with idle | ⟨dashed, named⟩ | statement
  · rw [line_of_isIdle idle, line_of_isIdle idle]
  · obtain ⟨name, -, -, opens⟩ := exists_line_of_isDashed dashed named
    rw [opens, opens, close_over hb hr]
    rfl
  · rw [line_of_isStatement statement, line_of_isStatement statement]
    rfl

theorem foldl_line_over (hb : Dictionary.IsOrdered base) (hr : Dictionary.IsOrdered r.found)
    (all : List (List Char)) :
    all.foldl Reading.line (r.over base) = (all.foldl Reading.line r).over base := by
  induction all generalizing r with
  | nil => rfl
  | cons line more ih =>
    rw [List.foldl_cons, List.foldl_cons, line_over hb hr, ih (isOrdered_line hr line)]

/-! The join of two files. -/

theorem intercalate_concat_append (body : List (List Char)) (line blanks : List Char) :
    ['\n'].intercalate (body ++ [line ++ blanks]) = ['\n'].intercalate (body ++ [line]) ++ blanks := by
  induction body with
  | nil => simp
  | cons first more ih =>
    obtain ⟨second, others, shape⟩ : ∃ second others, more ++ [line] = second :: others :=
      List.exists_cons_of_ne_nil (by simp)
    obtain ⟨second', others', shape'⟩ : ∃ second others, more ++ [line ++ blanks] = second :: others :=
      List.exists_cons_of_ne_nil (by simp)
    rw [shape, shape'] at ih
    rw [List.cons_append, List.cons_append, shape, shape', List.intercalate_cons_cons,
      List.intercalate_cons_cons, ih]
    simp only [List.append_assoc]

/-- Whether the last line of a file keeps its carriage return does not matter: a body is trimmed. -/
theorem close_line_dropReturn (r : Reading) (line : List Char) :
    (r.line (dropReturn line)).close = (r.line line).close := by
  have same := Text.trim_dropReturn line
  have marker : markerName? (dropReturn line) = markerName? line := by
    rw [markerName?, markerName?, same]
  rw [Reading.line, Reading.line, marker, same]
  split
  · rfl
  · rfl
  · split_ifs
    · rfl
    · obtain ⟨found, current⟩ := r
      cases current with
      | none => rfl
      | some query =>
        obtain ⟨blanks, blank, shape⟩ := Text.exists_dropReturn line
        have body : trim (['\n'].intercalate (query.2 ++ [line])) =
            trim (['\n'].intercalate (query.2 ++ [dropReturn line])) := by
          conv_lhs => rw [shape, intercalate_concat_append, Text.trim_append_blanks blank]
        simp only [Reading.close, Option.map_some, body]

/-- Behind a file, lines that open a query are read as from the start. -/
theorem foldl_line_of_opens {all : List (List Char)}
    (opens : ∀ line, all.find? (fun line => ¬ IsIdle line) = some line → IsDashed line)
    (hr : Dictionary.IsOrdered r.found) :
    (all.foldl Reading.line r).close.found =
      Dictionary.override r.close.found (all.foldl Reading.line {}).close.found := by
  induction all with
  | nil => rfl
  | cons line more ih =>
    by_cases idle : IsIdle line
    · rw [List.foldl_cons, List.foldl_cons, line_of_isIdle idle, line_of_isIdle idle]
      refine ih fun other found => opens other ?_
      rwa [List.find?_cons_of_neg (by simpa using idle)]
    · obtain ⟨name, -, -, step⟩ :=
        exists_line_of_isDashed (opens line (List.find?_cons_of_pos (by simpa using idle))) idle
      have closed := isOrdered_close hr
      have start : Dictionary.IsOrdered (Reading.line {} line).found :=
        isOrdered_line Dictionary.isOrdered_nil line
      have begun : r.line line = (Reading.line {} line).over r.close.found := by
        rw [step, step]
        rfl
      rw [List.foldl_cons, List.foldl_cons, begun, foldl_line_over closed start,
        close_over closed (isOrdered_foldl_line start more)]
      rfl

theorem parseFile_append {first second : String} (opens : OpensQuery second) :
    parseFile (first ++ "\n" ++ second) =
      Dictionary.override (parseFile first) (parseFile second) := by
  obtain ⟨front, last, shape⟩ : ∃ front last, pieces '\n' first.toList = front ++ [last] :=
    ⟨_, _, (List.dropLast_concat_getLast (Text.pieces_ne_nil '\n' first.toList)).symm⟩
  have whole : (first ++ "\n" ++ second).toList = first.toList ++ '\n' :: second.toList := by
    simp
  -- The last line of the first file is read once with its carriage return and once without.
  have alone : parseFile first =
      (((front.map dropReturn).foldl Reading.line {}).line last).close.found := by
    rw [parseFile, Text.lines_of_pieces shape, List.foldl_append]
    split_ifs with spent
    · rw [spent, line_of_isIdle (Or.inl rfl)]
      rfl
    · rfl
  have ordered : Dictionary.IsOrdered
      (((pieces '\n' first.toList).map dropReturn).foldl Reading.line {}).found :=
    isOrdered_foldl_line Dictionary.isOrdered_nil _
  rw [parseFile, whole, Text.lines_append_break, List.foldl_append, foldl_line_of_opens opens ordered,
    alone, shape, List.map_append, List.foldl_append, ← close_line_dropReturn]
  rfl

/-! What a file gives. -/

/-- What has been read is written in the file, and so is what is being read. -/
structure Reading.IsSound (r : Reading) : Prop where
  found : ∀ query ∈ r.found, IsWritten query.1 query.2
  name : ∀ query, r.current = some query → query.1 ≠ "" ∧ Text.trimmed query.1 = query.1
  body : ∀ query, r.current = some query →
    ∀ line ∈ query.2, IsStatement line ∧ '\n' ∉ line

theorem IsStatement.of_trim_eq {other : List Char} (h : IsStatement line)
    (same : trim other = trim line) : IsStatement other := by
  rw [IsStatement, IsDashed, same]
  exact h

/-- Trimmed as a whole, a body has the lines that it is made of, up to blanks. -/
theorem isStatement_of_mem_body {body : List (List Char)}
    (statements : ∀ line ∈ body, IsStatement line ∧ '\n' ∉ line)
    (h : line ∈ lines (trim (['\n'].intercalate body))) : IsStatement line := by
  by_cases none : body = []
  · rw [none] at h
    cases h
  obtain ⟨before, behind, hb, ha, shape⟩ := Text.exists_trim (['\n'].intercalate body)
  obtain ⟨piece, inside, same⟩ := Text.exists_piece_of_mem_lines h
  obtain ⟨front, back, inFront, inBack, member⟩ := Text.exists_mem_pieces inside before behind
  rw [← shape, Text.pieces_intercalate none fun line inside => (statements line inside).2] at member
  have blankFront : front.all Text.isBlank = true :=
    List.all_eq_true.mpr fun c inside => List.all_eq_true.mp hb c (inFront inside)
  have blankBack : back.all Text.isBlank = true :=
    List.all_eq_true.mpr fun c inside => List.all_eq_true.mp ha c (inBack inside)
  refine (statements _ member).1.of_trim_eq ?_
  rw [Text.trim_append_blanks blankBack, Text.trim_blanks_append blankFront]
  rcases same with rfl | rfl
  · rfl
  · exact Text.trim_dropReturn piece

theorem isSound_close (h : r.IsSound) : r.close.IsSound := by
  obtain ⟨found, current⟩ := r
  cases current with
  | none => exact h
  | some query =>
    obtain ⟨name, body⟩ := query
    obtain ⟨name_ne, name_trimmed⟩ := h.name _ rfl
    refine ⟨fun entry member => ?_, nofun, nofun⟩
    simp only [Reading.close] at member
    split_ifs at member with empty
    · exact h.found entry member
    · rcases Dictionary.mem_insert member with rfl | member
      · refine ⟨name_ne, name_trimmed, ?_, ?_, fun line inside => ?_⟩
        · rwa [ne_eq, ← String.toList_eq_nil_iff, String.toList_ofList, ← List.isEmpty_iff]
        · rw [Text.trimmed, String.toList_ofList, Text.trim_trim]
        · rw [String.toList_ofList] at inside
          exact isStatement_of_mem_body (h.body _ rfl) inside
      · exact h.found entry member

theorem isSound_line (h : r.IsSound) (unbroken : '\n' ∉ line) : (r.line line).IsSound := by
  rcases isIdle_or line with idle | ⟨dashed, named⟩ | statement
  · rwa [line_of_isIdle idle]
  · obtain ⟨name, name_ne, name_trimmed, opens⟩ := exists_line_of_isDashed dashed named
    rw [opens]
    refine ⟨(isSound_close h).found, ?_, ?_⟩
    · rintro _ ⟨⟩
      exact ⟨name_ne, name_trimmed⟩
    · rintro _ ⟨⟩
      nofun
  · rw [line_of_isStatement statement]
    refine ⟨h.found, fun query current => ?_, fun query current => ?_⟩
    · obtain ⟨old, reading, rfl⟩ := Option.map_eq_some_iff.mp current
      exact h.name old reading
    · obtain ⟨old, reading, rfl⟩ := Option.map_eq_some_iff.mp current
      refine List.forall_mem_append.mpr ⟨h.body old reading, ?_⟩
      exact List.forall_mem_singleton.mpr ⟨statement, unbroken⟩

theorem isSound_foldl_line (h : r.IsSound) {all : List (List Char)}
    (unbroken : ∀ line ∈ all, '\n' ∉ line) : (all.foldl Reading.line r).IsSound := by
  induction all generalizing r with
  | nil => exact h
  | cons line more ih =>
    obtain ⟨here, later⟩ := List.forall_mem_cons.mp unbroken
    exact ih (isSound_line h here) later

theorem isWritten_of_parseFile {text : String} {query : String × String}
    (h : query ∈ parseFile text) : IsWritten query.1 query.2 :=
  have start : Reading.IsSound {} := ⟨nofun, nofun, nofun⟩
  (isSound_close (isSound_foldl_line start fun _ => Text.lineFeed_not_mem_lines)).found query h

/-- Query files compose: behind another file, one that opens with a query overrides its queries. And
every query of a file is written as `IsWritten` says. -/
theorem parseFile_composes :
    (∀ first second : String, OpensQuery second → parseFile (first ++ "\n" ++ second) =
      Dictionary.override (parseFile first) (parseFile second)) ∧
    ∀ text : String, ∀ query ∈ parseFile text, IsWritten query.1 query.2 :=
  ⟨fun _ _ => parseFile_append, fun _ _ => isWritten_of_parseFile⟩

/-- The second file replaces one of the two queries of the first, whose lines end with carriage
returns. -/
theorem parseFile_composes_sales :
    OpensQuery "--\n-- sales\nSELECT 3" ∧
    parseFile ("-- sales\nSELECT 1\r\n-- regions\nSELECT 2\r" ++ "\n" ++ "--\n-- sales\nSELECT 3") =
      [("regions", "SELECT 2"), ("sales", "SELECT 3")] := by
  have opens : OpensQuery "--\n-- sales\nSELECT 3" := by
    intro line found
    have first : (lines "--\n-- sales\nSELECT 3".toList).find? (fun line => ¬ IsIdle line) =
        some "-- sales".toList := by decide
    obtain rfl := Option.some.inj (first.symm.trans found)
    rw [IsDashed]
    decide
  have replaced : parseFile "-- sales\nSELECT 1\r\n-- regions\nSELECT 2\r" =
      [("regions", "SELECT 2"), ("sales", "SELECT 1")] := by decide
  have change : parseFile "--\n-- sales\nSELECT 3" = [("sales", "SELECT 3")] := by decide
  refine ⟨opens, ?_⟩
  rw [parseFile_composes.1 _ _ opens, replaced, change]
  decide

end Dashboard.Query
