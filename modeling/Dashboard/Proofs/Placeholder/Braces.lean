import Dashboard.Proofs.Placeholder
import Mathlib.Data.List.Induction
import Mathlib.Data.List.Infix

/-!
How a text is cut at its braces. One pass over the characters keeps the depth, the group that is open
and whether it has braces inside. It meets a closing brace with nothing open exactly where the text has a
stray one, and it leaves a group open exactly when the text does. A text whose braces are balanced is a
row of gaps and groups in turn, and the pass finds these groups.
-/
namespace Dashboard.Placeholder

/-- No front of a text closes more braces than it opens, and all of them are closed. -/
structure IsBalanced (text : List Char) : Prop where
  opened : ∀ front, front <+: text → front.count '\x7d' ≤ front.count '\x7b'
  closed : text.count '\x7d' = text.count '\x7b'

/-- Nothing is open behind a text when every back of it closes what it opens. -/
def IsClosed (text : List Char) : Prop :=
  ∀ back, back <:+ text → back.count '\x7b' ≤ back.count '\x7d'

instance (text : List Char) : Decidable (IsClosed text) :=
  decidable_of_iff (∀ back ∈ text.tails, back.count '\x7b' ≤ back.count '\x7d') <| by
    simp only [IsClosed, List.mem_tails]

/-- The places of the closing braces that meet nothing open. -/
def strays (text : List Char) : List Nat :=
  (List.range text.length).filter fun i => text[i]? = some '\x7d' ∧ IsClosed (text.take i)

example : strays "\x7da\x7bb\x7d\x7d".toList = [0, 5] := by decide

/-- Behind `k` open braces, no front of a text closes a brace with nothing open. -/
def ClosesAtMost (k : Nat) (text : List Char) : Prop :=
  ∀ front, front <+: text → front.count '\x7d' ≤ front.count '\x7b' + k

section Balance

variable {k : Nat} {c : Char} {text front back inside : List Char}

theorem count_opening (text : List Char) :
    ('\x7b' :: text).count '\x7b' = text.count '\x7b' + 1 ∧
      ('\x7b' :: text).count '\x7d' = text.count '\x7d' :=
  ⟨List.count_cons_self, List.count_cons_of_ne (by decide)⟩

theorem count_closing (text : List Char) :
    ('\x7d' :: text).count '\x7b' = text.count '\x7b' ∧
      ('\x7d' :: text).count '\x7d' = text.count '\x7d' + 1 :=
  ⟨List.count_cons_of_ne (by decide), List.count_cons_self⟩

theorem closesAtMost_cons : ClosesAtMost k (c :: text) ↔
    ∀ front, front <+: text → (c :: front).count '\x7d' ≤ (c :: front).count '\x7b' + k := by
  constructor
  · exact fun h front begins => h _ (List.prefix_cons_inj c |>.mpr begins)
  · intro h front begins
    rcases List.prefix_cons_iff.mp begins with rfl | ⟨more, rfl, later⟩
    · exact Nat.zero_le _
    · exact h more later

theorem closesAtMost_opening : ClosesAtMost k ('\x7b' :: text) ↔ ClosesAtMost (k + 1) text := by
  rw [closesAtMost_cons]
  refine forall₂_congr fun front _ => ?_
  rw [(count_opening front).1, (count_opening front).2]
  omega

theorem closesAtMost_closing : ClosesAtMost (k + 1) ('\x7d' :: text) ↔ ClosesAtMost k text := by
  rw [closesAtMost_cons]
  refine forall₂_congr fun front _ => ?_
  rw [(count_closing front).1, (count_closing front).2]
  omega

theorem not_closesAtMost_closing : ¬ClosesAtMost 0 ('\x7d' :: text) := fun h => by
  simpa using h ['\x7d'] (by simp)

theorem closesAtMost_plain (opens : c ≠ '\x7b') (closes : c ≠ '\x7d') :
    ClosesAtMost k (c :: text) ↔ ClosesAtMost k text := by
  rw [closesAtMost_cons]
  refine forall₂_congr fun front _ => ?_
  rw [List.count_cons_of_ne opens, List.count_cons_of_ne closes]

theorem closesAtMost_concat : ClosesAtMost k (text ++ [c]) ↔
    ClosesAtMost k text ∧ (text ++ [c]).count '\x7d' ≤ (text ++ [c]).count '\x7b' + k := by
  constructor
  · exact fun h => ⟨fun front begins => h front (begins.trans (List.prefix_append _ _)), h _ (by simp)⟩
  · rintro ⟨within, whole⟩ front begins
    rcases List.prefix_concat_iff.mp begins with rfl | begins
    · exact whole
    · exact within front begins

theorem isBalanced_iff : IsBalanced text ↔
    ClosesAtMost 0 text ∧ text.count '\x7d' = text.count '\x7b' :=
  ⟨fun h => ⟨h.opened, h.closed⟩, fun h => ⟨h.1, h.2⟩⟩

/-- The first closing brace that is one too many behind `k` open ones, if the text has it. -/
theorem exists_closing (k : Nat) (text : List Char) : ClosesAtMost k text ∨
    ∃ inside rest, text = inside ++ '\x7d' :: rest ∧ ClosesAtMost k inside ∧
      inside.count '\x7d' = inside.count '\x7b' + k := by
  have nothing (k : Nat) : ClosesAtMost k [] := fun front begins => by
    simp [List.prefix_nil.mp begins]
  -- `k` is how many braces are open in front of the text: one more or one less behind a brace.
  induction text generalizing k with
  | nil => exact .inl (nothing k)
  | cons c more ih =>
    by_cases opens : c = '\x7b'
    · subst opens
      rcases ih (k + 1) with all | ⟨inside, rest, rfl, within, count⟩
      · exact .inl (closesAtMost_opening.mpr all)
      · refine .inr ⟨'\x7b' :: inside, rest, rfl, closesAtMost_opening.mpr within, ?_⟩
        rw [(count_opening inside).1, (count_opening inside).2]
        omega
    by_cases closes : c = '\x7d'
    · subst closes
      cases k with
      | zero => exact .inr ⟨[], more, rfl, nothing 0, rfl⟩
      | succ k =>
        rcases ih k with all | ⟨inside, rest, rfl, within, count⟩
        · exact .inl (closesAtMost_closing.mpr all)
        · refine .inr ⟨'\x7d' :: inside, rest, rfl, closesAtMost_closing.mpr within, ?_⟩
          rw [(count_closing inside).1, (count_closing inside).2]
          omega
    · rcases ih k with all | ⟨inside, rest, rfl, within, count⟩
      · exact .inl ((closesAtMost_plain opens closes).mpr all)
      · refine .inr ⟨c :: inside, rest, rfl, (closesAtMost_plain opens closes).mpr within, ?_⟩
        rw [List.count_cons_of_ne opens, List.count_cons_of_ne closes, count]

theorem hasNoBrace_nil : HasNoBrace [] := fun _ => nofun

theorem count_of_hasNoBrace (plain : HasNoBrace text) :
    text.count '\x7b' = 0 ∧ text.count '\x7d' = 0 :=
  ⟨List.count_eq_zero.mpr fun member => (plain _ member).1 rfl,
    List.count_eq_zero.mpr fun member => (plain _ member).2 rfl⟩

theorem isBalanced_of_hasNoBrace (plain : HasNoBrace text) : IsBalanced text where
  opened front begins := by
    have within : HasNoBrace front := fun c member => plain c (begins.subset member)
    rw [(count_of_hasNoBrace within).1, (count_of_hasNoBrace within).2]
  closed := (count_of_hasNoBrace plain).2.trans (count_of_hasNoBrace plain).1.symm

/-- Behind a balanced front, what follows is balanced if the whole is. -/
theorem IsBalanced.of_append (whole : IsBalanced (front ++ back)) (before : IsBalanced front) :
    IsBalanced back where
  opened part begins := by
    have counts := whole.opened (front ++ part) (List.prefix_append_right_inj front |>.mpr begins)
    rw [List.count_append, List.count_append, before.closed] at counts
    exact Nat.le_of_add_le_add_left counts
  closed := by
    have counts := whole.closed
    rw [List.count_append, List.count_append, before.closed] at counts
    exact Nat.add_left_cancel counts

theorem IsBalanced.append (before : IsBalanced front) (after : IsBalanced back) :
    IsBalanced (front ++ back) where
  opened part begins := by
    rcases List.prefix_or_prefix_of_prefix begins (List.prefix_append front back) with within | beyond
    · exact before.opened part within
    · obtain ⟨more, rfl⟩ := beyond
      have counts := after.opened more (List.prefix_append_right_inj front |>.mp begins)
      rw [List.count_append, List.count_append, before.closed]
      exact Nat.add_le_add_left counts _
  closed := by rw [List.count_append, List.count_append, before.closed, after.closed]

theorem isBalanced_group (balanced : IsBalanced inside) :
    IsBalanced ('\x7b' :: (inside ++ ['\x7d'])) := by
  have counts := balanced.closed
  refine isBalanced_iff.mpr ⟨closesAtMost_opening.mpr (closesAtMost_concat.mpr ⟨?_, ?_⟩), ?_⟩
  · exact fun front begins => (balanced.opened front begins).trans (Nat.le_succ _)
  · simp [counts]
  · simp [counts]

end Balance

/-! Gaps and groups in turn. -/

/-- A group in braces, with the gap behind it. -/
structure Group where
  inside : List Char
  gap : List Char
  balanced : IsBalanced inside
  plain : HasNoBrace gap

def Group.braced (g : Group) : List Char := '\x7b' :: (g.inside ++ ['\x7d'])

/-- A gap, and then groups, each with a gap behind it. -/
structure Alternation where
  first : List Char
  plain : HasNoBrace first
  groups : List Group

def Alternation.text (a : Alternation) : List Char :=
  a.first ++ a.groups.flatMap fun g => g.braced ++ g.gap

instance (text : List Char) : Decidable (HasNoBrace text) :=
  inferInstanceAs (Decidable (∀ c ∈ text, c ≠ '\x7b' ∧ c ≠ '\x7d'))

namespace Alternation

theorem isBalanced (a : Alternation) : IsBalanced a.text := by
  obtain ⟨first, plain, groups⟩ := a
  refine (isBalanced_of_hasNoBrace plain).append ?_
  induction groups with
  | nil => exact isBalanced_of_hasNoBrace hasNoBrace_nil
  | cons g more ih =>
    exact ((isBalanced_group g.balanced).append (isBalanced_of_hasNoBrace g.plain)).append ih

/-- The first brace of a balanced text opens a group, and what follows the group is balanced again. -/
theorem exists_group {text : List Char} (balanced : IsBalanced ('\x7b' :: text)) :
    ∃ inside rest, text = inside ++ '\x7d' :: rest ∧ IsBalanced inside ∧ IsBalanced rest := by
  have counts : text.count '\x7d' = text.count '\x7b' + 1 := by
    simpa [List.count_cons] using balanced.closed
  rcases exists_closing 0 text with all | ⟨inside, rest, rfl, within, count⟩
  · have fewer := all text List.prefix_rfl
    omega
  · have inner : IsBalanced inside := isBalanced_iff.mpr ⟨within, count⟩
    have whole : '\x7b' :: (inside ++ '\x7d' :: rest) =
        '\x7b' :: (inside ++ ['\x7d']) ++ rest := by
      simp
    exact ⟨inside, rest, rfl, inner, (whole ▸ balanced).of_append (isBalanced_group inner)⟩

/-- A balanced text is a row of gaps and groups in turn. -/
theorem exists_of_isBalanced (text : List Char) (balanced : IsBalanced text) :
    ∃ a : Alternation, a.text = text := by
  match text with
  | [] => exact ⟨⟨[], hasNoBrace_nil, []⟩, rfl⟩
  | c :: more =>
    by_cases opens : c = '\x7b'
    · subst opens
      obtain ⟨inside, rest, rfl, inner, after⟩ := exists_group balanced
      obtain ⟨⟨gap, plain, groups⟩, rfl⟩ := exists_of_isBalanced rest after
      refine ⟨⟨[], hasNoBrace_nil, ⟨inside, gap, inner, plain⟩ :: groups⟩, ?_⟩
      simp [Alternation.text, Group.braced]
    by_cases closes : c = '\x7d'
    · subst closes
      exact absurd (isBalanced_iff.mp balanced).1 not_closesAtMost_closing
    · have single : HasNoBrace [c] := by simpa [HasNoBrace] using ⟨opens, closes⟩
      have after : IsBalanced more := balanced.of_append (isBalanced_of_hasNoBrace single)
      obtain ⟨⟨first, plain, groups⟩, rfl⟩ := exists_of_isBalanced more after
      exact ⟨⟨c :: first, List.forall_mem_cons.mpr ⟨⟨opens, closes⟩, plain⟩, groups⟩, rfl⟩
termination_by text.length
decreasing_by all_goals (subst_vars; simp; try omega)

end Alternation

/-! The pass over a text. -/

section Pass

variable (value : List Char)

/-- Within an open group the pass keeps all characters, counts the braces and notes if there are any. -/
theorem foldl_step_within {k : Nat} {text : List Char} (within : ClosesAtMost k text) {g : Groups}
    (depth : g.depth = k + 1) :
    text.foldl (Groups.step value) g =
      { g with
        depth := g.depth + text.count '\x7b' - text.count '\x7d'
        current := g.current ++ text
        isNested := g.isNested || text.contains '\x7b' } := by
  induction text generalizing k g with
  | nil => simp
  | cons c more ih =>
    by_cases opens : c = '\x7b'
    · subst opens
      have step : g.step value '\x7b' =
          { g with depth := g.depth + 1, isNested := true, current := g.current ++ ['\x7b'] } := by
        simp [Groups.step, depth]
      rw [List.foldl_cons, step, ih (closesAtMost_opening.mp within) (congrArg (· + 1) depth),
        (count_opening more).1, (count_opening more).2]
      simp [Nat.add_right_comm, Nat.add_assoc]
    by_cases closes : c = '\x7d'
    · subst closes
      cases k with
      | zero => exact absurd within not_closesAtMost_closing
      | succ k =>
        have step : g.step value '\x7d' =
            { g with depth := k + 1, current := g.current ++ ['\x7d'] } := by
          simp [Groups.step, depth]
        rw [List.foldl_cons, step, ih (closesAtMost_closing.mp within) rfl,
          (count_closing more).1, (count_closing more).2]
        simp [depth]
        omega
    · have step : g.step value c = { g with current := g.current ++ [c] } := by
        simp [Groups.step, opens, closes, depth]
      have later := (closesAtMost_plain opens closes).mp within
      rw [List.foldl_cons, step, ih later (g := { g with current := g.current ++ [c] }) depth,
        List.count_cons_of_ne opens, List.count_cons_of_ne closes]
      simp [Ne.symm opens]

/-- Between groups the pass leaves out what is no brace. -/
theorem foldl_step_gap {gap : List Char} (plain : HasNoBrace gap) {g : Groups} (closed : g.depth = 0) :
    gap.foldl (Groups.step value) g = g := by
  induction gap with
  | nil => rfl
  | cons c more ih =>
    obtain ⟨⟨opens, closes⟩, later⟩ := List.forall_mem_cons.mp plain
    rw [List.foldl_cons, Groups.step, if_neg opens, if_neg closes, if_pos closed, ih later]

/-- In a balanced text without opening braces there are none at all. -/
theorem hasNoBrace_iff {inside : List Char} (balanced : IsBalanced inside) :
    HasNoBrace inside ↔ '\x7b' ∉ inside := by
  refine ⟨fun plain member => (plain _ member).1 rfl, fun absent c member => ⟨?_, ?_⟩⟩
  · rintro rfl
    exact absent member
  · rintro rfl
    have count := balanced.closed
    rw [List.count_eq_zero.mpr absent] at count
    exact List.count_eq_zero.mp count member

/-- A group is passed as a whole, and kept or reported by what is inside. -/
theorem foldl_step_braced (g : Group) (segments : List (List Char)) (violations : List Violation) :
    g.braced.foldl (Groups.step value) { segments, violations } =
      if HasNoBrace g.inside then { segments := segments ++ [g.braced], violations }
      else { segments, violations := violations ++ [.nested g.braced] } := by
  have opened : Groups.step value { segments, violations } '\x7b' =
      { segments, violations, current := ['\x7b'], depth := 1 } := by
    simp [Groups.step]
  have level : 1 + g.inside.count '\x7b' - g.inside.count '\x7d' = 1 := by
    rw [g.balanced.closed, Nat.add_sub_cancel]
  rw [Group.braced, List.foldl_cons, opened, List.foldl_append,
    foldl_step_within value (isBalanced_iff.mp g.balanced).1 rfl, level]
  by_cases plain : HasNoBrace g.inside
  · have absent := (hasNoBrace_iff g.balanced).mp plain
    simp [Groups.step, plain, absent]
  · have present := not_not.mp (mt (hasNoBrace_iff g.balanced).mpr plain)
    simp [Groups.step, plain, present]

theorem foldl_step_groups (groups : List Group) (segments : List (List Char))
    (violations : List Violation) :
    (groups.flatMap fun g => g.braced ++ g.gap).foldl (Groups.step value) { segments, violations } =
      { segments := segments ++ (groups.filter fun g => HasNoBrace g.inside).map Group.braced
        violations := violations ++
          (groups.filter fun g => ¬HasNoBrace g.inside).map fun g => .nested g.braced } := by
  induction groups generalizing segments violations with
  | nil => simp
  | cons g more ih =>
    rw [List.flatMap_cons, List.foldl_append, List.foldl_append, foldl_step_braced]
    by_cases plain : HasNoBrace g.inside
    · rw [if_pos plain, foldl_step_gap value g.plain rfl, ih]
      simp [plain]
    · rw [if_neg plain, foldl_step_gap value g.plain rfl, ih]
      simp [plain]

end Pass

theorem braceSegments_text (a : Alternation) : braceSegments a.text =
    ((a.groups.filter fun g => HasNoBrace g.inside).map Group.braced,
      (a.groups.filter fun g => ¬HasNoBrace g.inside).map fun g => .nested g.braced) := by
  have pass (value : List Char) : a.text.foldl (Groups.step value) {} =
      { segments := (a.groups.filter fun g => HasNoBrace g.inside).map Group.braced
        violations :=
          (a.groups.filter fun g => ¬HasNoBrace g.inside).map fun g => .nested g.braced } := by
    rw [Alternation.text, List.foldl_append, foldl_step_gap value a.plain rfl]
    exact foldl_step_groups value a.groups [] []
  rw [braceSegments, pass]
  rfl

theorem braceSegments_group {body : List Char} (plain : HasNoBrace body) :
    braceSegments ('\x7b' :: (body ++ ['\x7d'])) = (['\x7b' :: (body ++ ['\x7d'])], []) := by
  have single := braceSegments_text
    ⟨[], hasNoBrace_nil, [⟨body, [], isBalanced_of_hasNoBrace plain, hasNoBrace_nil⟩]⟩
  simpa [Alternation.text, Group.braced, plain] using single

/-! Braces with nothing open. -/

/-- The braces that a text leaves open: a closing brace closes the innermost one, if there is any. -/
def openAfter (text : List Char) : Nat :=
  text.foldl
    (fun depth c => if c = '\x7b' then depth + 1 else if c = '\x7d' then depth - 1 else depth) 0

theorem openAfter_concat (text : List Char) (c : Char) : openAfter (text ++ [c]) =
    if c = '\x7b' then openAfter text + 1 else if c = '\x7d' then openAfter text - 1
    else openAfter text := by
  rw [openAfter, List.foldl_append]
  rfl

/-- What a text leaves open is the most that a back of it opens without closing. -/
theorem openAfter_le {text : List Char} {k : Nat} :
    openAfter text ≤ k ↔ ∀ back, back <:+ text → back.count '\x7b' ≤ back.count '\x7d' + k := by
  induction text using List.reverseRecOn generalizing k with
  | nil => simp [openAfter]
  | append_singleton front c ih =>
    have split : (∀ back, back <:+ front ++ [c] → back.count '\x7b' ≤ back.count '\x7d' + k) ↔
        ∀ back, back <:+ front →
          (back ++ [c]).count '\x7b' ≤ (back ++ [c]).count '\x7d' + k := by
      constructor
      · exact fun h back ends => h _ (List.suffix_concat_iff.mpr (.inr ⟨back, rfl, ends⟩))
      · intro h back ends
        rcases List.suffix_concat_iff.mp ends with rfl | ⟨earlier, rfl, before⟩
        · exact Nat.zero_le _
        · exact h earlier before
    rw [split, openAfter_concat]
    by_cases opens : c = '\x7b'
    · subst opens
      cases k with
      | zero => exact iff_of_false (by simp) fun h => by simpa using h [] (List.nil_suffix)
      | succ k => simp [ih, ← Nat.add_assoc]
    by_cases closes : c = '\x7d'
    · subst closes
      simp [ih, Nat.add_right_comm, Nat.add_assoc]
    · simp [opens, closes, ih]

theorem openAfter_eq_zero {text : List Char} : openAfter text = 0 ↔ IsClosed text :=
  Nat.le_zero.symm.trans openAfter_le

theorem strays_concat (text : List Char) (c : Char) : strays (text ++ [c]) =
    strays text ++ if c = '\x7d' ∧ openAfter text = 0 then [text.length] else [] := by
  have before : ∀ i ∈ List.range text.length,
      decide ((text ++ [c])[i]? = some '\x7d' ∧ IsClosed ((text ++ [c]).take i)) =
        decide (text[i]? = some '\x7d' ∧ IsClosed (text.take i)) := by
    intro i member
    have inside := List.mem_range.mp member
    simp only [List.getElem?_append_left inside, List.take_append_of_le_length inside.le]
  rw [strays, List.length_append, List.length_singleton, List.range_succ, List.filter_append,
    List.filter_congr before, ← strays]
  simp [List.filter_cons, openAfter_eq_zero]

theorem openAfter_add {text : List Char} (within : ClosesAtMost 0 text) :
    openAfter text + text.count '\x7d' = text.count '\x7b' := by
  induction text using List.reverseRecOn with
  | nil => rfl
  | append_singleton front c ih =>
    obtain ⟨before, whole⟩ := closesAtMost_concat.mp within
    have counts := ih before
    rw [openAfter_concat]
    by_cases opens : c = '\x7b'
    · subst opens
      simp [← counts, Nat.add_right_comm]
    by_cases closes : c = '\x7d'
    · subst closes
      simp at whole ⊢
      omega
    · simpa [opens, closes] using counts

/-- A text has no stray brace when no front of it closes more than it opens. -/
theorem strays_eq_nil {text : List Char} : strays text = [] ↔ ClosesAtMost 0 text := by
  induction text using List.reverseRecOn with
  | nil => exact iff_of_true rfl (isBalanced_of_hasNoBrace hasNoBrace_nil).opened
  | append_singleton front c ih =>
    rw [strays_concat, List.append_eq_nil_iff, ih, closesAtMost_concat]
    refine and_congr_right fun before => ?_
    have counts := openAfter_add before
    by_cases opens : c = '\x7b'
    · subst opens
      simp
      omega
    by_cases closes : c = '\x7d'
    · subst closes
      simp
      omega
    · simp [opens, closes]
      omega

theorem isBalanced_iff_strays {text : List Char} :
    IsBalanced text ↔ strays text = [] ∧ openAfter text = 0 := by
  rw [isBalanced_iff, strays_eq_nil]
  refine and_congr_right fun within => ?_
  have counts := openAfter_add within
  omega

def Violation.isStray : Violation → Bool
  | .unbalanced _ => true
  | _ => false

theorem step_depth (value : List Char) (g : Groups) (c : Char) : (g.step value c).depth =
    if c = '\x7b' then g.depth + 1 else if c = '\x7d' then g.depth - 1 else g.depth := by
  rcases g with ⟨segments, violations, current, _ | _ | depth, nested⟩
  all_goals
    simp only [Groups.step]
    split_ifs <;> rfl

/-- A step reports a closing brace with nothing open, or the group that it closes. -/
theorem step_violations (value : List Char) (g : Groups) (c : Char) : (g.step value c).violations =
    g.violations ++
      if c = '\x7d' ∧ g.depth = 0 then [.unbalanced value]
      else if c = '\x7d' ∧ g.depth = 1 ∧ g.isNested then [.nested (g.current ++ [c])]
      else [] := by
  by_cases opens : c = '\x7b'
  · subst opens
    simp [Groups.step]
  by_cases closes : c = '\x7d'
  · subst closes
    rcases g with ⟨segments, violations, current, _ | _ | depth, _ | _⟩ <;> simp [Groups.step]
  · simp only [Groups.step, opens, closes, if_false, false_and, List.append_nil]
    split_ifs <;> rfl

/-- What the pass knows behind a front of the text: how many braces are open, and the stray ones. -/
structure Groups.Follows (value front : List Char) (g : Groups) : Prop where
  depth : g.depth = openAfter front
  strayed : g.violations.filter Violation.isStray = (strays front).map fun _ => .unbalanced value
  unclosed : ∀ segment, .unclosed segment ∉ g.violations

theorem Groups.Follows.step {value front : List Char} {g : Groups} (h : g.Follows value front)
    (c : Char) : (g.step value c).Follows value (front ++ [c]) where
  depth := by rw [step_depth, openAfter_concat, h.depth]
  strayed := by
    rw [step_violations, strays_concat, List.filter_append, List.map_append, h.strayed, h.depth]
    split_ifs <;> rfl
  unclosed segment := by
    rw [step_violations, List.mem_append, not_or]
    refine ⟨h.unclosed segment, ?_⟩
    split_ifs <;> simp

theorem follows_foldl (value front : List Char) :
    (front.foldl (Groups.step value) {}).Follows value front := by
  induction front using List.reverseRecOn with
  | nil => exact ⟨rfl, rfl, fun _ => nofun⟩
  | append_singleton front c ih =>
    rw [List.foldl_append]
    exact ih.step c

theorem filter_braceSegments (value : List Char) :
    (braceSegments value).2.filter Violation.isStray =
      (strays value).map fun _ => .unbalanced value := by
  rw [braceSegments]
  split_ifs
  · exact (follows_foldl value value).strayed
  · rw [List.filter_append, (follows_foldl value value).strayed]
    exact List.append_nil _

theorem unbalanced_notMem {value : List Char} :
    (∀ text, .unbalanced text ∉ (braceSegments value).2) ↔ strays value = [] := by
  rw [← List.map_eq_nil_iff, ← filter_braceSegments, List.filter_eq_nil_iff]
  constructor
  · intro absent v member stray
    cases v with
    | unbalanced text => exact absent text member
    | _ => cases stray
  · exact fun none text member => none _ member rfl

/-- A group is reported as unclosed when the text leaves a brace open. -/
theorem unclosed_notMem {value : List Char} :
    (∀ segment, .unclosed segment ∉ (braceSegments value).2) ↔ openAfter value = 0 := by
  have follows := follows_foldl value value
  rw [braceSegments, follows.depth]
  split_ifs with closed
  · exact iff_of_true follows.unclosed closed
  · refine iff_of_false (fun absent => ?_) closed
    exact absent _ (List.mem_append_right _ (List.mem_singleton_self _))

/-- The pass reports no stray brace and no unclosed one exactly when the text is balanced, and in any
text one stray brace for each place where there is one. The balanced texts are the rows of gaps and groups
in turn; of the groups the pass returns those without inner braces, in order, and reports the others. -/
theorem braceSegments_exact (value : List Char) :
    ((∀ part, .unbalanced part ∉ (braceSegments value).2 ∧
      .unclosed part ∉ (braceSegments value).2) ↔ IsBalanced value) ∧
    (braceSegments value).2.filter Violation.isStray =
      (strays value).map (fun _ => .unbalanced value) ∧
    (IsBalanced value ↔ ∃ a : Alternation, a.text = value) ∧
    ∀ a : Alternation, a.text = value → braceSegments value =
      ((a.groups.filter fun g => HasNoBrace g.inside).map Group.braced,
        (a.groups.filter fun g => ¬HasNoBrace g.inside).map fun g => .nested g.braced) := by
  refine ⟨?_, filter_braceSegments value, ⟨Alternation.exists_of_isBalanced value, ?_⟩, ?_⟩
  · rw [forall_and, unbalanced_notMem, unclosed_notMem, isBalanced_iff_strays]
  · rintro ⟨a, rfl⟩
    exact a.isBalanced
  · rintro a rfl
    exact braceSegments_text a

/-- A gap, a group, a gap, and a group with another one inside. -/
def sampleText : List Char := "a\x7bb\x7dc\x7bd\x7be\x7d\x7d".toList

theorem braceSegments_exact_sample : IsBalanced sampleText ∧
    ∃ a : Alternation, a.text = sampleText ∧
      (a.groups.filter fun g => HasNoBrace g.inside).map Group.braced = ["\x7bb\x7d".toList] ∧
      (a.groups.filter fun g => ¬HasNoBrace g.inside).map (fun g => Violation.nested g.braced) =
        [.nested "\x7bd\x7be\x7d\x7d".toList] := by
  have found : braceSegments sampleText =
      (["\x7bb\x7d".toList], [.nested "\x7bd\x7be\x7d\x7d".toList]) := by
    decide
  obtain ⟨reports, -, cut, each⟩ := braceSegments_exact sampleText
  have balanced : IsBalanced sampleText := reports.mp fun part => by simp [found]
  obtain ⟨a, text⟩ := cut.mp balanced
  obtain ⟨segments, violations⟩ := Prod.mk.inj ((each a text).symm.trans found)
  exact ⟨balanced, a, text, segments, violations⟩

end Dashboard.Placeholder
