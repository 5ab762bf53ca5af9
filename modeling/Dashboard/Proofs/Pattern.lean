import Dashboard.Text.Pattern
import Mathlib.Data.List.Forall2

/-!
Patterns as languages. A pattern that does not look at the character before it takes the same texts
wherever it is tried, and it matches a whole text exactly when that text is one of them. Every
pattern takes a stretch of the text, and a sequence ends with what its last pattern takes.
-/
namespace Dashboard.Text

namespace Place

theorem exists_behind? {same : Char → Char → Bool} {mark : List Char} {before : Option Char}
    {text rest : List Char} :
    (∃ stop, behind? same mark ⟨before, text⟩ = some stop ∧ stop.rest = rest) ↔
      ∃ front, text = front ++ rest ∧ List.Forall₂ (fun m c => same m c = true) mark front := by
  induction mark generalizing before text with
  | nil =>
    constructor
    · rintro ⟨stop, found, rfl⟩
      cases found
      exact ⟨[], rfl, .nil⟩
    · rintro ⟨front, rfl, matched⟩
      cases matched
      exact ⟨_, rfl, rfl⟩
  | cons m more ih =>
    cases text with
    | nil =>
      constructor
      · rintro ⟨stop, found, -⟩
        cases found
      · rintro ⟨front, shape, matched⟩
        cases matched
        cases shape
    | cons c text =>
      rw [behind?]
      split_ifs with agrees
      · rw [ih]
        constructor
        · rintro ⟨front, rfl, matched⟩
          exact ⟨c :: front, rfl, .cons agrees matched⟩
        · rintro ⟨front, shape, matched⟩
          cases matched with
          | cons first others =>
            cases shape
            exact ⟨_, rfl, others⟩
      · constructor
        · rintro ⟨stop, found, -⟩
          cases found
        · rintro ⟨front, shape, matched⟩
          cases matched with
          | cons first others =>
            cases shape
            exact absurd first agrees

theorem exists_mem_run {accepts : Char → Bool} {before : Option Char} {text rest : List Char} :
    (∃ stop ∈ run accepts before text, stop.rest = rest) ↔
      ∃ front, text = front ++ rest ∧ ∀ c ∈ front, accepts c = true := by
  induction text generalizing before with
  | nil =>
    rw [run]
    constructor
    · rintro ⟨stop, found, rfl⟩
      obtain rfl := List.mem_singleton.mp found
      exact ⟨[], rfl, by simp⟩
    · rintro ⟨front, shape, -⟩
      obtain ⟨rfl, rfl⟩ := List.append_eq_nil_iff.mp shape.symm
      exact ⟨_, List.mem_singleton_self _, rfl⟩
  | cons c more ih =>
    rw [run]
    constructor
    · rintro ⟨stop, found, rfl⟩
      rcases List.mem_cons.mp found with rfl | found
      · exact ⟨[], rfl, by simp⟩
      · split_ifs at found with accepted
        · obtain ⟨front, shape, all⟩ := ih.mp ⟨stop, found, rfl⟩
          exact ⟨c :: front, by rw [shape, List.cons_append], List.forall_mem_cons.mpr ⟨accepted, all⟩⟩
        · cases found
    · rintro ⟨front, shape, all⟩
      cases front with
      | nil => exact ⟨_, List.mem_cons_self, shape⟩
      | cons d front =>
        cases shape
        obtain ⟨accepted, all⟩ := List.forall_mem_cons.mp all
        obtain ⟨stop, found, same⟩ := ih.mpr ⟨front, rfl, all⟩
        exact ⟨stop, List.mem_cons_of_mem _ (by rwa [if_pos accepted]), same⟩

/-- What is taken on the way from one place to another is the text between them. -/
theorem upTo_eq {start stop : Place} {front : List Char} (shape : start.rest = front ++ stop.rest) :
    start.upTo stop = front := by
  rw [upTo, shape, List.length_append, Nat.add_sub_cancel, List.take_left]

end Place

namespace Pattern

/-- No boundary is part of the pattern. -/
def isContextFree : Pattern → Bool
  | boundary => false
  | seq first second | alt first second => first.isContextFree && second.isContextFree
  | _ => true

/-- The texts that a pattern without boundaries stands for. -/
def Spells : Pattern → List Char → Prop
  | char accepts, text => ∃ c, accepts c = true ∧ text = [c]
  | literal mark, text => text = mark
  | anyCase mark, text => List.Forall₂ (fun m c => foldCase m = foldCase c) mark text
  | many accepts, text | few accepts, text => ∀ c ∈ text, accepts c = true
  | boundary, _ => False
  | seq first second, text =>
    ∃ front back, text = front ++ back ∧ first.Spells front ∧ second.Spells back
  | alt first second, text => first.Spells text ∨ second.Spells text

theorem exists_mem_ends {pattern : Pattern} (free : pattern.isContextFree = true) {before : Option Char}
    {text rest : List Char} :
    (∃ stop ∈ pattern.ends ⟨before, text⟩, stop.rest = rest) ↔
      ∃ front, text = front ++ rest ∧ pattern.Spells front := by
  induction pattern generalizing before text rest with
  | char accepts =>
    cases text with
    | nil => simp [ends, Spells]
    | cons c text =>
      by_cases accepted : accepts c = true
      · simp [ends, Spells, accepted]
      · simp [ends, Spells, accepted]
  | literal mark =>
    simp only [ends, Option.mem_toList, Spells, Place.exists_behind?, decide_eq_true_eq,
      List.forall₂_eq_eq_eq, @eq_comm _ mark]
  | anyCase mark =>
    simp only [ends, Option.mem_toList, Spells, Place.exists_behind?, decide_eq_true_eq]
  | many accepts => simp only [ends, List.mem_reverse, Spells, Place.exists_mem_run]
  | few accepts => simp only [ends, Spells, Place.exists_mem_run]
  | boundary => cases free
  | seq first second ihFirst ihSecond =>
    obtain ⟨left, right⟩ := Bool.and_eq_true_iff.mp free
    constructor
    · rintro ⟨stop, found, rfl⟩
      obtain ⟨middle, reached, found⟩ := List.mem_flatMap.mp found
      obtain ⟨front, shape, spelled⟩ := (ihFirst left).mp ⟨middle, reached, rfl⟩
      obtain ⟨back, rest, others⟩ := (ihSecond right).mp ⟨stop, found, rfl⟩
      exact ⟨front ++ back, by rw [shape, rest, List.append_assoc], front, back, rfl, spelled, others⟩
    · rintro ⟨-, shape, front, back, rfl, spelled, others⟩
      rw [List.append_assoc] at shape
      obtain ⟨middle, reached, same⟩ := (ihFirst left).mpr ⟨front, shape, spelled⟩
      -- The second pattern begins behind another character, which it does not look at.
      obtain ⟨stop, found, ended⟩ : ∃ stop ∈ second.ends middle, stop.rest = rest :=
        (ihSecond right).mpr ⟨back, same, others⟩
      exact ⟨stop, List.mem_flatMap.mpr ⟨middle, reached, found⟩, ended⟩
  | alt first second ihFirst ihSecond =>
    obtain ⟨left, right⟩ := Bool.and_eq_true_iff.mp free
    simp only [ends, List.mem_append, or_and_right, exists_or, ihFirst left, ihSecond right, Spells,
      and_or_left]

theorem matchesWhole_iff {pattern : Pattern} (free : pattern.isContextFree = true) {text : List Char} :
    pattern.matchesWhole text = true ↔ pattern.Spells text := by
  have whole : pattern.matchesWhole text = true ↔
      ∃ stop ∈ pattern.ends ⟨none, text⟩, stop.rest = [] := by
    simp only [matchesWhole, Place.ofText, List.any_eq_true, List.isEmpty_iff]
  rw [whole, exists_mem_ends free]
  simp

theorem spells_sequence {pattern : Pattern} {more : List Pattern} {text : List Char} :
    (sequence (pattern :: more)).Spells text ↔
      ∃ front back, text = front ++ back ∧ pattern.Spells front ∧ (sequence more).Spells back := by
  cases more with
  | nil => simp [sequence, Spells]
  | cons next others => rfl

theorem spells_choice {patterns : List Pattern} {text : List Char} :
    (choice patterns).Spells text ↔ ∃ pattern ∈ patterns, pattern.Spells text := by
  induction patterns with
  | nil => simp [choice, Spells]
  | cons pattern more ih =>
    cases more with
    | nil => simp [choice]
    | cons next others =>
      rw [List.exists_mem_cons_iff, ← ih]
      rfl

/-- A pattern takes a stretch of the text from where it is tried. -/
theorem exists_front {pattern : Pattern} {start stop : Place} (h : stop ∈ pattern.ends start) :
    ∃ front, start.rest = front ++ stop.rest := by
  induction pattern generalizing start stop with
  | char accepts | literal mark | anyCase mark | many accepts | few accepts =>
    obtain ⟨front, shape, -⟩ := (exists_mem_ends rfl).mp ⟨stop, h, rfl⟩
    exact ⟨front, shape⟩
  | boundary =>
    rw [ends] at h
    split_ifs at h
    · obtain rfl := List.mem_singleton.mp h
      exact ⟨[], rfl⟩
    · cases h
  | seq first second ihFirst ihSecond =>
    obtain ⟨middle, reached, found⟩ := List.mem_flatMap.mp h
    obtain ⟨front, shape⟩ := ihFirst reached
    obtain ⟨back, rest⟩ := ihSecond found
    exact ⟨front ++ back, by rw [shape, rest, List.append_assoc]⟩
  | alt first second ihFirst ihSecond =>
    rcases List.mem_append.mp h with found | found
    · exact ihFirst found
    · exact ihSecond found

/-- What a sequence takes ends with what its last pattern takes. -/
theorem exists_last {patterns : List Pattern} {last : Pattern} {start stop : Place}
    (h : stop ∈ (sequence (patterns ++ [last])).ends start) :
    ∃ front place, start.rest = front ++ place.rest ∧ stop ∈ last.ends place := by
  induction patterns generalizing start with
  | nil => exact ⟨[], start, rfl, h⟩
  | cons pattern more ih =>
    have shape : sequence (pattern :: more ++ [last]) = seq pattern (sequence (more ++ [last])) := by
      cases more <;> rfl
    rw [shape] at h
    obtain ⟨middle, reached, found⟩ := List.mem_flatMap.mp h
    obtain ⟨front, before⟩ := exists_front reached
    obtain ⟨back, place, behind, found⟩ := ih found
    exact ⟨front ++ back, place, by rw [before, behind, List.append_assoc], found⟩

/-- A reported match is a way to match at a place of the text. -/
theorem exists_of_mem_allMatches {pattern : Pattern} {before : Option Char} {text found : List Char}
    (h : found ∈ pattern.allMatches before text) :
    ∃ front start stop, text = front ++ start.rest ∧ stop ∈ pattern.ends start ∧
      found = start.upTo stop := by
  induction before, text using allMatches.induct pattern with
  | case1 before =>
    rw [allMatches] at h
    cases h
  | case2 before c more stop first shorter ih =>
    rw [allMatches] at h
    simp only [first, shorter, dif_pos] at h
    have reached := List.mem_of_mem_head? first
    rcases List.mem_cons.mp h with rfl | later
    · exact ⟨[], _, stop, rfl, reached, rfl⟩
    · obtain ⟨taken, shape⟩ := exists_front reached
      obtain ⟨front, start, last, rest, way, same⟩ := ih later
      exact ⟨taken ++ front, start, last, by rw [List.append_assoc, ← rest]; exact shape, way, same⟩
  | case3 before c more stop first long ih =>
    rw [allMatches] at h
    simp only [first, dif_neg long] at h
    obtain ⟨front, start, last, rest, way, same⟩ := ih h
    exact ⟨c :: front, start, last, by rw [rest, List.cons_append], way, same⟩
  | case4 before c more none ih =>
    rw [allMatches] at h
    simp only [none] at h
    obtain ⟨front, start, last, rest, way, same⟩ := ih h
    exact ⟨c :: front, start, last, by rw [rest, List.cons_append], way, same⟩

end Pattern

/-! A text within a longer one. -/

namespace Place

/-- The place in a longer text: more text behind it, and before it a character that counts the same for
boundaries. -/
structure Continues (behind : List Char) (p q : Place) : Prop where
  before : isWord q.before = isWord p.before
  rest : q.rest = p.rest ++ behind

variable {behind : List Char} {p q stop : Place}

/-- Where the text goes on with no word character, boundaries stay. -/
theorem Continues.isBoundary_eq (apart : isWord behind.head? = false) (h : Continues behind p q) :
    q.isBoundary = p.isBoundary := by
  have next : isWord q.rest.head? = isWord p.rest.head? := by
    rw [h.rest]
    cases p.rest with
    | nil => exact apart
    | cons c more => rfl
  rw [isBoundary, isBoundary, h.before, next]

theorem Continues.behind? {same : Char → Char → Bool} {mark : List Char} (h : Continues behind p q)
    (found : Place.behind? same mark p = some stop) :
    ∃ stop', Place.behind? same mark q = some stop' ∧ Continues behind stop stop' := by
  induction mark generalizing p q with
  | nil =>
    cases found
    exact ⟨q, rfl, h⟩
  | cons m more ih =>
    obtain ⟨before, text⟩ := p
    cases text with
    | nil => cases found
    | cons c text =>
      have shape : q = ⟨q.before, c :: (text ++ behind)⟩ := by
        cases q
        exact congrArg _ h.rest
      rw [Place.behind?] at found
      rw [shape, Place.behind?]
      split_ifs at found ⊢ with agrees
      exact ih (p := ⟨some c, text⟩) ⟨rfl, rfl⟩ found

theorem exists_mem_run_of_mem {accepts : Char → Bool} {before before' : Option Char} {text : List Char}
    (same : isWord before' = isWord before) (found : stop ∈ run accepts before text) :
    ∃ stop' ∈ run accepts before' (text ++ behind), Continues behind stop stop' := by
  induction text generalizing before before' with
  | nil =>
    obtain rfl := List.mem_singleton.mp found
    refine ⟨⟨before', behind⟩, ?_, ⟨same, rfl⟩⟩
    cases behind with
    | nil => exact List.mem_singleton_self _
    | cons c more => exact List.mem_cons_self
  | cons c more ih =>
    rw [run] at found
    rw [List.cons_append, run]
    rcases List.mem_cons.mp found with rfl | found
    · exact ⟨_, List.mem_cons_self, ⟨same, rfl⟩⟩
    · split_ifs at found ⊢ with accepted
      · obtain ⟨stop', reached, continues⟩ := ih rfl found
        exact ⟨stop', List.mem_cons_of_mem _ reached, continues⟩
      · cases found

end Place

namespace Pattern

variable {behind : List Char} {p q stop : Place}

open Place (isWord Continues)

/-- Every way to match goes through in a longer text, where that goes on with no word character. -/
theorem exists_mem_ends_of_continues (apart : isWord behind.head? = false) {pattern : Pattern}
    (h : Continues behind p q) (found : stop ∈ pattern.ends p) :
    ∃ stop' ∈ pattern.ends q, Continues behind stop stop' := by
  induction pattern generalizing p q stop with
  | char accepts =>
    rw [ends] at found
    rw [ends, h.rest]
    cases rest : p.rest with
    | nil =>
      rw [rest] at found
      cases found
    | cons c more =>
      rw [rest] at found
      dsimp only [List.cons_append] at found ⊢
      split_ifs at found ⊢ with accepted
      · obtain rfl := List.mem_singleton.mp found
        exact ⟨_, List.mem_singleton_self _, ⟨rfl, rfl⟩⟩
      · cases found
  | literal mark | anyCase mark =>
    obtain ⟨stop', reached, continues⟩ := h.behind? (Option.mem_toList.mp found)
    exact ⟨stop', Option.mem_toList.mpr reached, continues⟩
  | many accepts =>
    obtain ⟨stop', reached, continues⟩ :=
      Place.exists_mem_run_of_mem h.before (List.mem_reverse.mp found)
    refine ⟨stop', ?_, continues⟩
    rw [ends, h.rest]
    exact List.mem_reverse.mpr reached
  | few accepts =>
    obtain ⟨stop', reached, continues⟩ := Place.exists_mem_run_of_mem h.before found
    refine ⟨stop', ?_, continues⟩
    rw [ends, h.rest]
    exact reached
  | boundary =>
    rw [ends] at found
    rw [ends, h.isBoundary_eq apart]
    split_ifs at found ⊢ with between
    · obtain rfl := List.mem_singleton.mp found
      exact ⟨q, List.mem_singleton_self _, h⟩
    · cases found
  | seq first second ihFirst ihSecond =>
    obtain ⟨middle, reached, found⟩ := List.mem_flatMap.mp found
    obtain ⟨middle', reached', continues⟩ := ihFirst h reached
    obtain ⟨stop', found', continues⟩ := ihSecond continues found
    exact ⟨stop', List.mem_flatMap.mpr ⟨middle', reached', found'⟩, continues⟩
  | alt first second ihFirst ihSecond =>
    rcases List.mem_append.mp found with found | found
    · obtain ⟨stop', reached, continues⟩ := ihFirst h found
      exact ⟨stop', List.mem_append_left _ reached, continues⟩
    · obtain ⟨stop', reached, continues⟩ := ihSecond h found
      exact ⟨stop', List.mem_append_right _ reached, continues⟩

/-- A search reports a match when there is a way to match at some place of the text. -/
theorem isSome_find?_iff {pattern : Pattern} {before : Option Char} {text : List Char} :
    (pattern.find? before text).isSome = true ↔
      ∃ front rest, text = front ++ rest ∧ pattern.ends ⟨front.getLast?.or before, rest⟩ ≠ [] := by
  induction text generalizing before with
  | nil =>
    rw [find?, Option.isSome_map, List.isSome_head?]
    constructor
    · intro here
      exact ⟨[], [], rfl, by simpa using here⟩
    · rintro ⟨front, rest, shape, here⟩
      obtain ⟨rfl, rfl⟩ := List.append_eq_nil_iff.mp shape.symm
      simpa using here
  | cons c more ih =>
    have last (front : List Char) :
        (c :: front).getLast?.or before = front.getLast?.or (some c) := by
      rw [List.getLast?_cons]
      cases front.getLast? <;> rfl
    rw [find?]
    cases here : (pattern.ends ⟨before, c :: more⟩).head? with
    | some stop =>
      refine iff_of_true rfl ⟨[], c :: more, rfl, ?_⟩
      exact List.ne_nil_of_mem (List.mem_of_mem_head? here)
    | none =>
      dsimp only
      rw [ih]
      constructor
      · rintro ⟨front, rest, rfl, later⟩
        exact ⟨c :: front, rest, rfl, by rwa [last]⟩
      · rintro ⟨front, rest, shape, later⟩
        cases front with
        | nil =>
          obtain rfl : c :: more = rest := shape
          exact absurd (List.head?_eq_none_iff.mp here) later
        | cons d front =>
          cases shape
          exact ⟨front, rest, rfl, by rwa [last] at later⟩

/-- A text in which a match is found may stand in a longer one, between characters of no word. -/
theorem isSome_find?_of_surrounded {pattern : Pattern} {text : List Char}
    (found : (pattern.find? none text).isSome = true) {before behind : List Char}
    (first : isWord before.getLast? = false) (last : isWord behind.head? = false) :
    (pattern.find? none (before ++ text ++ behind)).isSome = true := by
  obtain ⟨front, rest, rfl, here⟩ := isSome_find?_iff.mp found
  obtain ⟨stop, way⟩ := List.exists_mem_of_ne_nil _ here
  have continues : Continues behind ⟨front.getLast?.or none, rest⟩
      ⟨(before ++ front).getLast?.or none, rest ++ behind⟩ := by
    refine ⟨?_, rfl⟩
    rw [List.getLast?_append]
    cases front.getLast? with
    | none => simpa [isWord] using first
    | some c => rfl
  obtain ⟨stop', way', -⟩ := exists_mem_ends_of_continues last continues way
  exact isSome_find?_iff.mpr
    ⟨before ++ front, rest ++ behind, by simp, List.ne_nil_of_mem way'⟩

end Pattern

end Dashboard.Text
