import Dashboard.Proofs.Pattern
import Dashboard.Proofs.Placeholder

/-!
Resolving as substitution. A text is cut at its placeholders, the matches of one pattern from left
to right, and the gaps between them hold none. Resolving puts what the inputs show in the place of
the placeholders, keeps the gaps, and does not read again what it has put.
-/
namespace Dashboard.Placeholder

open Text (Pattern)

/-- A text cut at its placeholders: the gap in front, and each placeholder with the gap behind it. -/
structure Cut where
  first : String
  later : List (Reference × String)

namespace Cut

def gaps (c : Cut) : List String := c.first :: c.later.map Prod.snd

def references (c : Cut) : List Reference := c.later.map Prod.fst

/-- The gaps with other texts in the places of the placeholders. -/
def fill (c : Cut) (filler : Reference → String) : String :=
  c.first ++ String.join (c.later.map fun found => filler found.1 ++ found.2)

def ofPieces : List Piece → Cut
  | [] => ⟨"", []⟩
  | .gap text :: more =>
    { ofPieces more with first := String.ofList text ++ (ofPieces more).first }
  | .reference name :: more =>
    ⟨"", (.named name, (ofPieces more).first) :: (ofPieces more).later⟩

end Cut

/-- Somewhere in the text stands a placeholder. -/
def HoldsPlaceholder (text : String) : Prop :=
  ∃ front name rest : String, isIdentifier name.toList = true ∧
    text = front ++ ("\x7binputs." ++ name ++ "\x7d") ++ rest

/-- What becomes of a piece when its placeholder gives way to another text. -/
def fillPiece (filler : Reference → String) : Piece → List Char
  | .gap text => text
  | .reference name => (filler (.named name)).toList

theorem named_fullMatch (name : List Char) :
    (Reference.named name).fullMatch = "\x7binputs." ++ (Reference.named name).paramName ++ "\x7d" := by
  rw [← String.toList_inj, String.toList_append, String.toList_append, Reference.named,
    @String.toList_ofList name, String.toList_ofList]
  rfl

theorem toList_placeholder (front name rest : String) :
    (front ++ ("\x7binputs." ++ name ++ "\x7d") ++ rest).toList =
      front.toList ++ (opening ++ name.toList ++ '\x7d' :: rest.toList) := by
  rw [String.toList_append, String.toList_append, String.toList_append, String.toList_append,
    List.append_assoc, List.append_assoc, List.append_assoc]
  rfl

theorem holdsPlaceholder_iff {text : String} :
    HoldsPlaceholder text ↔ ∃ front rest name, text.toList = front ++ rest ∧ at? rest = some name := by
  constructor
  · rintro ⟨front, name, rest, identifier, shape⟩
    exact ⟨front.toList, _, name.toList, by rw [shape, toList_placeholder],
      at?_eq_some.mpr ⟨identifier, rest.toList, rfl⟩⟩
  · rintro ⟨front, rest, name, shape, begins⟩
    obtain ⟨identifier, behind, parts⟩ := at?_eq_some.mp begins
    refine ⟨.ofList front, .ofList name, .ofList behind, by rwa [String.toList_ofList], ?_⟩
    rw [← String.toList_inj, toList_placeholder, String.toList_ofList, String.toList_ofList,
      String.toList_ofList, shape, parts]

theorem not_holdsPlaceholder_empty : ¬ HoldsPlaceholder "" := by
  intro holds
  obtain ⟨front, rest, name, shape, begins⟩ := holdsPlaceholder_iff.mp holds
  obtain ⟨-, rfl⟩ := List.append_eq_nil_iff.mp shape.symm
  cases begins

theorem flatMap_chars_pieces (text : List Char) : (pieces text).flatMap Piece.chars = text := by
  induction text using pieces.induct with
  | case1 =>
    rw [pieces]
    rfl
  | case2 c more name begins ih =>
    obtain ⟨identifier, rest, shape⟩ := at?_eq_some.mp begins
    rw [drop_placeholder shape] at ih
    rw [shape, pieces_placeholder identifier, List.flatMap_cons, ih, Piece.chars, List.append_assoc]
    simp
  | case3 c more apart ih =>
    rw [pieces, apart]
    dsimp only
    rw [flatMap_consChar fun _ => rfl, ih]

theorem isIdentifier_of_mem_pieces {text name : List Char} (h : .reference name ∈ pieces text) :
    isIdentifier name = true := by
  induction text using pieces.induct with
  | case1 =>
    rw [pieces] at h
    cases h
  | case2 c more found begins ih =>
    obtain ⟨identifier, rest, shape⟩ := at?_eq_some.mp begins
    rw [drop_placeholder shape] at ih
    rw [shape, pieces_placeholder identifier] at h
    rcases List.mem_cons.mp h with same | later
    · cases same
      exact identifier
    · exact ih later
  | case3 c more apart ih =>
    rw [pieces, apart] at h
    dsimp only at h
    unfold consChar at h
    split at h
    · next text others same =>
      rcases List.mem_cons.mp h with same | later
      · cases same
      · exact ih (by rw [same]; exact List.mem_cons_of_mem _ later)
    · rcases List.mem_cons.mp h with same | later
      · cases same
      · exact ih later

namespace Cut

theorem ofPieces_gap (text : List Char) (more : List Piece) : ofPieces (.gap text :: more) =
    { ofPieces more with first := String.ofList text ++ (ofPieces more).first } := rfl

theorem ofPieces_reference (name : List Char) (more : List Piece) :
    ofPieces (.reference name :: more) =
      ⟨"", (.named name, (ofPieces more).first) :: (ofPieces more).later⟩ := rfl

theorem toList_fill_ofPieces (filler : Reference → String) (all : List Piece) :
    ((ofPieces all).fill filler).toList = all.flatMap (fillPiece filler) := by
  induction all with
  | nil => rfl
  | cons piece more ih =>
    rw [fill, String.toList_append, String.toList_join] at ih
    cases piece with
    | gap text =>
      rw [List.flatMap_cons, ← ih]
      simp [ofPieces_gap, fill, fillPiece]
    | reference name =>
      rw [List.flatMap_cons, ← ih]
      simp [ofPieces_reference, fill, fillPiece]

theorem references_ofPieces (all : List Piece) :
    (ofPieces all).references = all.filterMap fun
      | .gap _ => none
      | .reference name => some (.named name) := by
  induction all with
  | nil => rfl
  | cons piece more ih =>
    cases piece with
    | gap text => exact ih
    | reference name => exact congrArg _ ih

theorem ofPieces_consChar (c : Char) (all : List Piece) :
    ofPieces (consChar c all) =
      { ofPieces all with first := String.ofList [c] ++ (ofPieces all).first } := by
  unfold consChar
  split
  · next text more =>
    have joined : String.ofList (c :: text) = String.ofList [c] ++ String.ofList text := by
      rw [← String.ofList_append]
      rfl
    rw [ofPieces_gap, ofPieces_gap, joined, String.append_assoc]
  · rfl

theorem toList_fill_fullMatch (text : List Char) :
    ((ofPieces (pieces text)).fill Reference.fullMatch).toList = text := by
  have chars : fillPiece Reference.fullMatch = Piece.chars := by
    funext piece
    cases piece with
    | gap text => rfl
    | reference name => exact String.toList_ofList
  rw [toList_fill_ofPieces, chars, flatMap_chars_pieces]

/-- The gaps of a text hold no placeholder. -/
theorem free_of_mem_gaps (text : List Char) :
    ∀ gap ∈ (ofPieces (pieces text)).gaps, ¬ HoldsPlaceholder gap := by
  induction text using pieces.induct with
  | case1 =>
    intro gap member holds
    rw [pieces] at member
    obtain rfl := List.mem_singleton.mp member
    exact not_holdsPlaceholder_empty holds
  | case2 c more name begins ih =>
    obtain ⟨identifier, rest, shape⟩ := at?_eq_some.mp begins
    rw [drop_placeholder shape] at ih
    rw [shape, pieces_placeholder identifier]
    intro gap member
    rcases List.mem_cons.mp member with rfl | later
    · exact not_holdsPlaceholder_empty
    · exact ih gap later
  | case3 c more apart ih =>
    rw [pieces, apart]
    dsimp only
    rw [ofPieces_consChar]
    intro gap member
    rcases List.mem_cons.mp member with rfl | later
    · intro holds
      obtain ⟨front, rest, name, shape, begins⟩ := holdsPlaceholder_iff.mp holds
      rw [String.toList_append, String.toList_ofList, List.singleton_append] at shape
      cases front with
      | nil =>
        -- The placeholder would begin the text itself, which goes on behind the gap.
        obtain ⟨identifier, behind, parts⟩ := at?_eq_some.mp begins
        obtain ⟨others, whole⟩ : ∃ others, more = (ofPieces (pieces more)).first.toList ++ others :=
          ⟨_, by rw [← String.toList_append, ← fill, toList_fill_fullMatch]⟩
        have also : at? (c :: more) = some name := by
          refine at?_eq_some.mpr ⟨identifier, behind ++ others, ?_⟩
          rw [whole, ← List.cons_append, shape, List.nil_append, parts, List.append_assoc]
          rfl
        rw [apart] at also
        cases also
      | cons d front =>
        obtain ⟨-, inner⟩ := List.cons.inj shape
        exact ih _ List.mem_cons_self (holdsPlaceholder_iff.mpr ⟨front, rest, name, inner, begins⟩)
    · exact ih gap (List.mem_cons_of_mem _ later)

end Cut

section Matches

/-- The pattern of a placeholder. -/
def pattern : Pattern :=
  .sequence [.literal opening, .char startsIdentifier, .many isIdentifierChar, .literal ['\x7d']]

theorem spells_pattern {text : List Char} :
    pattern.Spells text ↔ ∃ name, isIdentifier name = true ∧ text = opening ++ name ++ ['\x7d'] := by
  constructor
  · rintro ⟨_, _, rfl, rfl, _, _, rfl, ⟨first, starts, rfl⟩, more, _, rfl, later, rfl⟩
    exact ⟨first :: more, isIdentifier_cons.mpr ⟨starts, later⟩, by simp⟩
  · rintro ⟨name, identifier, rfl⟩
    cases name with
    | nil => cases identifier
    | cons first more =>
      obtain ⟨starts, later⟩ := isIdentifier_cons.mp identifier
      exact ⟨opening, _, List.append_assoc _ _ _, rfl, [first], _, rfl, ⟨first, starts, rfl⟩, more, _,
        rfl, later, rfl⟩

theorem exists_mem_ends_pattern {before : Option Char} {text rest : List Char} :
    (∃ stop ∈ pattern.ends ⟨before, text⟩, stop.rest = rest) ↔
      ∃ name, isIdentifier name = true ∧ text = opening ++ name ++ '\x7d' :: rest := by
  rw [Pattern.exists_mem_ends rfl]
  constructor
  · rintro ⟨front, rfl, spelled⟩
    obtain ⟨name, identifier, rfl⟩ := spells_pattern.mp spelled
    exact ⟨name, identifier, by simp⟩
  · rintro ⟨name, identifier, rfl⟩
    exact ⟨_, by simp, spells_pattern.mpr ⟨name, identifier, rfl⟩⟩

theorem filterMap_consChar {α : Type} {f : Piece → Option α} (skips : ∀ text, f (.gap text) = none)
    (c : Char) (all : List Piece) : (consChar c all).filterMap f = all.filterMap f := by
  unfold consChar
  split
  · rw [List.filterMap_cons_none (skips _), List.filterMap_cons_none (skips _)]
  · rw [List.filterMap_cons_none (skips _)]

/-- The placeholders of a text are the matches of the pattern, each search beginning behind the last
match. -/
theorem allMatches_pattern (before : Option Char) (text : List Char) :
    pattern.allMatches before text = (pieces text).filterMap fun
      | .gap _ => none
      | .reference name => some (Piece.reference name).chars := by
  induction text using pieces.induct generalizing before with
  | case1 =>
    rw [pieces, Pattern.allMatches]
    rfl
  | case2 c more name begins ih =>
    obtain ⟨identifier, rest, shape⟩ := at?_eq_some.mp begins
    rw [drop_placeholder shape] at ih
    obtain ⟨stop, first⟩ : ∃ stop, (pattern.ends ⟨before, c :: more⟩).head? = some stop := by
      obtain ⟨stop, reached, -⟩ := exists_mem_ends_pattern.mpr ⟨name, identifier, shape⟩
      exact ⟨_, List.head?_eq_some_head (List.ne_nil_of_mem reached)⟩
    -- However the pattern matches here, it takes the placeholder.
    obtain ⟨other, also, same⟩ :=
      exists_mem_ends_pattern.mp ⟨stop, List.mem_of_mem_head? first, rfl⟩
    obtain rfl : name = other :=
      Option.some.inj (begins.symm.trans (at?_eq_some.mpr ⟨also, stop.rest, same⟩))
    obtain rfl : rest = stop.rest :=
      (List.cons.inj (List.append_cancel_left (shape.symm.trans same))).2
    have shorter : stop.rest.length < (c :: more).length := by
      rw [shape, List.length_append, List.length_cons]
      omega
    have taken : Text.Place.upTo ⟨before, c :: more⟩ stop = (Piece.reference name).chars :=
      Text.Place.upTo_eq (by rw [shape, Piece.chars, List.append_assoc _ ['\x7d']]; rfl)
    rw [Pattern.allMatches]
    simp only [first, dif_pos shorter]
    rw [taken, ih, shape, pieces_placeholder identifier]
    rfl
  | case3 c more apart ih =>
    have none : pattern.ends ⟨before, c :: more⟩ = [] := by
      refine List.eq_nil_iff_forall_not_mem.mpr fun stop reached => ?_
      obtain ⟨name, identifier, shape⟩ := exists_mem_ends_pattern.mp ⟨stop, reached, rfl⟩
      have also := at?_eq_some.mpr ⟨identifier, stop.rest, shape⟩
      rw [apart] at also
      cases also
    rw [pieces, apart, Pattern.allMatches, none]
    dsimp only [List.head?_nil]
    rw [ih, filterMap_consChar fun _ => rfl]

theorem fullMatch_parseReferences (text : String) :
    (parseReferences text).map (fun found => found.fullMatch.toList) =
      pattern.allMatches none text.toList := by
  rw [allMatches_pattern, parseReferences, List.map_filterMap]
  congr 1
  funext piece
  cases piece with
  | gap text => rfl
  | reference name => exact congrArg some String.toList_ofList

theorem paramName_parseReferences (text : String) :
    (parseReferences text).map Reference.paramName = references text := by
  rw [references, parseReferences, List.map_filterMap]
  congr 1
  funext piece
  cases piece <;> rfl

end Matches

/-- The placeholders of a text and the gaps between them make up the text; resolving keeps the gaps
and puts for each placeholder what its input shows, whatever that is. -/
theorem exists_cut (text : String) :
    ∃ c : Cut, c.references = parseReferences text ∧
      (∀ gap ∈ c.gaps, ¬ HoldsPlaceholder gap) ∧
      (∀ found ∈ parseReferences text, isIdentifier found.paramName.toList = true ∧
        found.fullMatch = "\x7binputs." ++ found.paramName ++ "\x7d") ∧
      text = c.fill Reference.fullMatch ∧
      ∀ state : InputState, resolve text state = c.fill fun found =>
        match Dictionary.find? state found.paramName with
        | none | some .null => ""
        | some value => value.stringified := by
  refine ⟨.ofPieces (pieces text.toList), Cut.references_ofPieces _, Cut.free_of_mem_gaps _, ?_, ?_,
    fun state => ?_⟩
  · intro found member
    obtain ⟨piece, inside, same⟩ := List.mem_filterMap.mp member
    cases piece with
    | gap text => cases same
    | reference name =>
      obtain rfl := Option.some.inj same
      refine ⟨?_, named_fullMatch name⟩
      rw [Reference.named, String.toList_ofList]
      exact isIdentifier_of_mem_pieces inside
  · rw [← String.toList_inj, Cut.toList_fill_fullMatch]
  · have shown (found : Reference) : state.shown found.paramName =
        match Dictionary.find? state found.paramName with
        | none | some .null => ""
        | some value => value.stringified := by
      rw [InputState.shown]
      split
      · next value found =>
        rw [found]
        cases value <;> rfl
      · next none =>
        rw [none]
    simp only [← shown]
    rw [← String.toList_inj, toList_resolve, Cut.toList_fill_ofPieces]
    rfl

end Dashboard.Placeholder
