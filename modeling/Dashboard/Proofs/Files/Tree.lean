import Mathlib.Tactic.SplitIfs
import Dashboard.Files.Tree
import Dashboard.Proofs.Outcome

/-!
Trees of files under their operations. Where a path leads is a matter of its steps alone; whether it
can be walked depends on the directories that are there. Making directories adds those on the path,
and a file that is written and then moved leaves nothing behind.
-/
namespace Dashboard

namespace Path

variable {p : Path} {name : String}

@[simp] theorem steps_join (p : Path) (name : String) :
    (p.join name).steps = p.steps ++ [.down name] := by
  simp [steps, join]

@[simp] theorem below_join (p : Path) (name : String) : (p.join name).below = p.below ++ [name] :=
  rfl

theorem push_eq_join (p : Path) (noSlash : '/' ∉ name.toList) : p.push name = p.join name :=
  if_neg fun first => noSlash (List.mem_of_mem_head? first)

theorem text_join (p : Path) (name : String) :
    (p.join name).text =
      if p.text.isEmpty || endsInSlash p.text then p.text ++ name else p.text ++ "/" ++ name := by
  simp [text, join]

/-- A path below another one begins with its text. -/
theorem exists_text_join (p : Path) (name : String) :
    ∃ between, (p.join name).text = p.text ++ between ++ name := by
  rw [text_join]
  split
  · exact ⟨"", by simp⟩
  · exact ⟨"/", rfl⟩

theorem text_join_ne_empty (notEmpty : name ≠ "") : (p.join name).text ≠ "" := by
  obtain ⟨between, shape⟩ := p.exists_text_join name
  rw [shape]
  intro none
  exact notEmpty (String.append_eq_empty_iff.mp none).2

/-- A name that is made from a stem has it back. -/
theorem stem_append {front extension : String} (some : front ≠ "") (noDot : '.' ∉ extension.toList) :
    stem (front ++ "." ++ extension) = front := by
  have whole : (front ++ "." ++ extension).toList.reverse =
      extension.toList.reverse ++ '.' :: front.toList.reverse := by simp
  have kept : ∀ c ∈ extension.toList.reverse, decide (c ≠ '.') = true := fun c member =>
    decide_eq_true fun dot => noDot (dot ▸ List.mem_reverse.mp member)
  rw [stem, whole, List.dropWhile_append_of_pos kept, List.dropWhile_cons_of_neg (by simp)]
  cases shape : front.toList.reverse with
  | nil => exact absurd (by simpa using shape) some
  | cons c more =>
    dsimp only
    rw [← shape, List.reverse_reverse, String.ofList_toList]

end Path

namespace FileTree

variable {t t' : FileTree} {place q : Place} {node n : FileNode} {steps : List Path.Step}
  {path : Path} {name text : String}

/-! What is at a place. -/

theorem mem_of_lookup {nodes : List (Place × FileNode)} (h : List.lookup q nodes = some n) :
    (q, n) ∈ nodes := by
  induction nodes with
  | nil => cases h
  | cons entry more ih =>
    rw [List.lookup_cons] at h
    split at h
    · next same =>
      cases h
      rw [eq_of_beq same]
      exact List.mem_cons_self
    · exact List.mem_cons_of_mem _ (ih h)

theorem mem_of_node? (inside : q ≠ []) (h : t.node? q = some n) : (q, n) ∈ t.nodes := by
  rw [node?, if_neg inside] at h
  exact mem_of_lookup h

theorem not_mem_of_node? (inside : q ≠ []) (h : t.node? q = none) : (q, n) ∉ t.nodes := by
  rw [node?, if_neg inside, List.lookup_eq_none_iff] at h
  intro member
  simpa using h _ member

/-- Where a place has one node only, that is the node there. -/
theorem node?_eq_some_iff (inside : q ≠ [])
    (single : ∀ n n', (q, n) ∈ t.nodes → (q, n') ∈ t.nodes → n = n') :
    t.node? q = some n ↔ (q, n) ∈ t.nodes := by
  refine ⟨mem_of_node? inside, fun member => ?_⟩
  cases found : t.node? q with
  | none => exact absurd member (not_mem_of_node? inside found)
  | some n' => rw [single n n' member (mem_of_node? inside found)]

theorem mem_nodes_erase : (q, n) ∈ (t.erase place).nodes ↔ q ≠ place ∧ (q, n) ∈ t.nodes := by
  simp [erase, and_comm]

theorem mem_nodes_set :
    (q, n) ∈ (t.set place node).nodes ↔
      q = place ∧ n = node ∨ q ≠ place ∧ (q, n) ∈ t.nodes := by
  simp [set, and_comm]

theorem lookup_filter_ne {nodes : List (Place × FileNode)} (other : q ≠ place) :
    List.lookup q (nodes.filter fun entry => entry.1 ≠ place) = List.lookup q nodes := by
  induction nodes with
  | nil => rfl
  | cons entry more ih =>
    by_cases same : entry.1 = place
    · have apart : (q == entry.1) = false := by simpa [same] using other
      rw [List.filter_cons_of_neg (by simpa using same), List.lookup_cons, apart, ih]
    · rw [List.filter_cons_of_pos (by simpa using same), List.lookup_cons, List.lookup_cons, ih]

theorem node?_erase_of_ne (other : q ≠ place) : (t.erase place).node? q = t.node? q := by
  rw [node?, node?, erase, lookup_filter_ne other]

theorem node?_erase_self (inside : place ≠ []) : (t.erase place).node? place = none := by
  cases found : (t.erase place).node? place with
  | none => rfl
  | some n => exact absurd rfl (mem_nodes_erase.mp (mem_of_node? inside found)).1

theorem node?_set_of_ne (other : q ≠ place) : (t.set place node).node? q = t.node? q := by
  have apart : (q == place) = false := by simpa using other
  rw [node?, node?, set, List.lookup_cons, apart, lookup_filter_ne other]

theorem node?_set_self (inside : place ≠ []) : (t.set place node).node? place = some node := by
  rw [node?, if_neg inside, set, List.lookup_cons, beq_self_eq_true]

@[simp] theorem home_set : (t.set place node).home = t.home := rfl

theorem start_congr (home : t'.home = t.home) : t'.start path = t.start path := by
  rw [start, start, home]

@[simp] theorem start_join : t.start (path.join name) = t.start path := rfl

/-! Where steps lead. -/

/-- The place that steps lead to, whatever is on the way. -/
def follow (place : Place) : List Path.Step → Place
  | [] => place
  | .stay :: more => follow place more
  | .up :: more => follow place.dropLast more
  | .down name :: more => follow (place ++ [name]) more

/-- The places that steps go down to. -/
def passed (place : Place) : List Path.Step → List Place
  | [] => []
  | .stay :: more => passed place more
  | .up :: more => passed place.dropLast more
  | .down name :: more => (place ++ [name]) :: passed (place ++ [name]) more

theorem follow_append (place : Place) (steps more : List Path.Step) :
    follow place (steps ++ more) = follow (follow place steps) more := by
  induction steps generalizing place with
  | nil => rfl
  | cons step _ ih => cases step <;> exact ih _

theorem passed_append (place : Place) (steps more : List Path.Step) :
    passed place (steps ++ more) = passed place steps ++ passed (follow place steps) more := by
  induction steps generalizing place with
  | nil => rfl
  | cons step _ ih =>
    cases step with
    | stay | up => exact ih _
    | down name => exact congrArg _ (ih _)

/-- Steps that never go up pass only places on the way to where they lead. -/
theorem isPrefix_follow (forward : .up ∉ steps) (place : Place) : place <+: follow place steps := by
  induction steps generalizing place with
  | nil => exact List.prefix_rfl
  | cons step more ih =>
    have later := ih fun member => forward (List.mem_cons_of_mem _ member)
    cases step with
    | stay => exact later place
    | up => exact absurd List.mem_cons_self forward
    | down name => exact (List.prefix_append place [name]).trans (later _)

theorem isPrefix_follow_of_mem_passed (forward : .up ∉ steps) (passes : q ∈ passed place steps) :
    q <+: follow place steps := by
  induction steps generalizing place with
  | nil => cases passes
  | cons step more ih =>
    have rest : .up ∉ more := fun member => forward (List.mem_cons_of_mem _ member)
    cases step with
    | stay => exact ih rest passes
    | up => exact absurd List.mem_cons_self forward
    | down name =>
      rcases List.mem_cons.mp passes with rfl | later
      · exact isPrefix_follow rest _
      · exact ih rest later

/-! Walking. -/

theorem walk_cons (t : FileTree) (place : Place) (step : Path.Step) (more : List Path.Step) :
    t.walk place (step :: more) =
      match t.node? place with
      | none => .error .missing
      | some (.file _) => .error .notDirectory
      | some .directory =>
        match step with
        | .stay => t.walk place more
        | .up => t.walk place.dropLast more
        | .down name =>
          if Path.maxName < name.utf8ByteSize then .error .tooLong
          else t.walk (place ++ [name]) more := by
  cases step <;> rfl

theorem walk_append (t : FileTree) (place : Place) (steps more : List Path.Step) :
    t.walk place (steps ++ more) = t.walk place steps >>= fun q => t.walk q more := by
  induction steps generalizing place with
  | nil => rfl
  | cons step _ ih =>
    rw [List.cons_append, walk_cons, walk_cons]
    split
    · rfl
    · rfl
    · cases step with
      | stay | up => exact ih _
      | down name =>
        dsimp only
        split
        · rfl
        · exact ih _

theorem walk_cons_eq_ok {step : Path.Step} (h : t.walk place (step :: steps) = .ok q) :
    t.node? place = some .directory ∧ t.walk (follow place [step]) steps = .ok q := by
  rw [walk_cons] at h
  split at h
  · cases h
  · cases h
  · next there =>
    refine ⟨there, ?_⟩
    cases step with
    | stay | up => exact h
    | down name =>
      dsimp only at h
      split at h
      · cases h
      · exact h

theorem eq_follow_of_walk (h : t.walk place steps = .ok q) : q = follow place steps := by
  induction steps generalizing place with
  | nil => exact (Except.ok.inj h).symm
  | cons step _ ih =>
    have later := ih (walk_cons_eq_ok h).2
    cases step <;> exact later

/-- A walk needs directories only. -/
theorem walk_of_directories
    (kept : ∀ q, t.node? q = some .directory → t'.node? q = some .directory)
    (h : t.walk place steps = .ok q) : t'.walk place steps = .ok q := by
  induction steps generalizing place with
  | nil => exact h
  | cons step more ih =>
    obtain ⟨there, -⟩ := walk_cons_eq_ok h
    rw [walk_cons, there] at h
    rw [walk_cons, kept place there]
    cases step with
    | stay | up => exact ih h
    | down name =>
      dsimp only at h ⊢
      split at h
      · cases h
      · next fits =>
        rw [if_neg fits]
        exact ih h

/-- One step down from a directory. -/
theorem walk_down (there : t.node? place = some .directory) (name : String)
    (more : List Path.Step) : t.walk place (.down name :: more) =
      if Path.maxName < name.utf8ByteSize then .error .tooLong
      else t.walk (place ++ [name]) more := by
  rw [walk_cons, there]

/-! Checking and resolving paths. -/

theorem checkPath_eq_ok : checkPath path = .ok () ↔
    '\x00' ∉ path.text.toList ∧ path.text ≠ "" ∧ path.text.utf8ByteSize ≤ Path.maxPath := by
  rw [checkPath]
  split_ifs with nul empty long
  · exact iff_of_false not_false fun h => h.1 (by simpa using nul)
  · exact iff_of_false not_false fun h => h.2.1 (by simpa using empty)
  · exact iff_of_false not_false fun h => absurd h.2.2 (by omega)
  · exact iff_of_true rfl ⟨by simpa using nul, by simpa using empty, by omega⟩

theorem checkPath_ne_missing (notEmpty : path.text ≠ "") : checkPath path ≠ .error .missing := by
  rw [checkPath]
  split_ifs with nul empty long
  · exact fun h => nomatch h
  · exact absurd (by simpa using empty) notEmpty
  · exact fun h => nomatch h
  · exact fun h => nomatch h

/-- What is wrong with a path is wrong with every path below it, unless it is empty. -/
theorem checkPath_of_join (h : checkPath (path.join name) = .ok ()) (notEmpty : path.text ≠ "") :
    checkPath path = .ok () := by
  obtain ⟨between, shape⟩ := path.exists_text_join name
  rw [checkPath_eq_ok, shape] at h
  obtain ⟨nul, -, short⟩ := h
  refine checkPath_eq_ok.mpr ⟨fun member => nul ?_, notEmpty, ?_⟩
  · simp [member]
  · simp only [String.utf8ByteSize_append] at short
    omega

theorem resolve_eq_ok : t.resolve path = .ok q ↔
    checkPath path = .ok () ∧ t.walk (t.start path) path.steps = .ok q := by
  rw [resolve, bind_eq_ok]
  constructor
  · rintro ⟨⟨⟩, h⟩
    exact h
  · exact fun h => ⟨(), h⟩

theorem read_eq_ok : t.read path = .ok text ↔
    ∃ q, t.resolve path = .ok q ∧ t.node? q = some (.file text) := by
  rw [read, bind_eq_ok]
  refine exists_congr fun q => and_congr_right fun _ => ?_
  cases t.node? q with
  | none => simp
  | some node => cases node <;> simp

theorem entries_eq_ok {found : List DirectoryEntry} : t.entries path = .ok found ↔
    ∃ q, t.resolve path = .ok q ∧ t.node? q = some .directory ∧ found = t.entriesOf q := by
  rw [entries, bind_eq_ok]
  refine exists_congr fun q => and_congr_right fun _ => ?_
  cases t.node? q with
  | none => simp
  | some node => cases node <;> simp [eq_comm]

theorem mem_entriesOf {e : DirectoryEntry} : e ∈ t.entriesOf place ↔
    ∃ n, (place ++ [e.name], n) ∈ t.nodes ∧ e.isDirectory = decide (n = .directory) := by
  rw [entriesOf, List.mem_filterMap]
  constructor
  · rintro ⟨⟨q, n⟩, member, h⟩
    dsimp only at h
    split at h
    · next name last =>
      split at h
      · next parent =>
        cases h
        have whole : place ++ [name] = q := by
          obtain ⟨front, rfl⟩ := List.getLast?_eq_some_iff.mp last
          rw [← parent, List.dropLast_concat]
        exact ⟨n, whole ▸ member, rfl⟩
      · cases h
    · cases h
  · rintro ⟨n, member, kind⟩
    refine ⟨_, member, ?_⟩
    simp only [List.getLast?_append, List.getLast?_singleton, Option.some_or, List.dropLast_concat,
      if_true]
    rw [← kind]

/-! Making directories. -/

/-- A tree with directories at more places, and else as another one. -/
structure Adds (t t' : FileTree) (places : List Place) : Prop where
  home : t'.home = t.home
  mem : ∀ q n, (q, n) ∈ t'.nodes ↔
    (q, n) ∈ t.nodes ∨ n = .directory ∧ q ∈ places ∧ t.node? q = none
  kept : ∀ q n, t.node? q = some n → t'.node? q = some n
  fresh : ∀ q n, t'.node? q = some n → t.node? q = some n ∨ n = .directory ∧ q ∈ places
  there : ∀ q ∈ places, t'.node? q = some .directory

theorem adds_nil (t : FileTree) : Adds t t [] where
  home := rfl
  mem q n := by simp
  kept q n h := h
  fresh q n h := Or.inl h
  there q member := by cases member

/-- The first of the directories is there already. -/
theorem Adds.cons_of_directory {places : List Place} (h : Adds t t' places)
    (there : t.node? place = some .directory) : Adds t t' (place :: places) where
  home := h.home
  mem q n := by
    rw [h.mem]
    refine or_congr_right (and_congr_right fun _ => and_congr_left fun none => ?_)
    rw [List.mem_cons, or_iff_right]
    rintro rfl
    rw [there] at none
    cases none
  kept := h.kept
  fresh q n found := (h.fresh q n found).imp_right fun ⟨kind, member⟩ =>
    ⟨kind, List.mem_cons_of_mem _ member⟩
  there := List.forall_mem_cons.mpr ⟨h.kept _ _ there, h.there⟩

/-- The first of the directories is made before the others. -/
theorem Adds.cons_of_none {places : List Place} (h : Adds (t.set place .directory) t' places)
    (absent : t.node? place = none) : Adds t t' (place :: places) := by
  have inside : place ≠ [] := by
    rintro rfl
    cases absent
  have made : (t.set place .directory).node? place = some .directory := node?_set_self inside
  refine ⟨h.home, fun q n => ?_, fun q n there => ?_, fun q n found => ?_, ?_⟩
  · rw [h.mem, mem_nodes_set]
    by_cases same : q = place
    · subst same
      simp [made, absent, not_mem_of_node? inside absent]
    · simp [same, node?_set_of_ne same]
  · refine h.kept q n ?_
    rw [node?_set_of_ne, there]
    rintro rfl
    rw [absent] at there
    cases there
  · rcases h.fresh q n found with before | ⟨kind, member⟩
    · by_cases same : q = place
      · subst same
        rw [made] at before
        exact Or.inr ⟨(Option.some.inj before).symm, List.mem_cons_self⟩
      · rw [node?_set_of_ne same] at before
        exact Or.inl before
    · exact Or.inr ⟨kind, List.mem_cons_of_mem _ member⟩
  · exact List.forall_mem_cons.mpr ⟨h.kept _ _ made, h.there⟩

theorem adds_of_makeAll (h : t.makeAll place steps = (t', .ok ())) :
    Adds t t' (passed place steps) := by
  induction steps generalizing t place with
  | nil =>
    cases h
    exact adds_nil _
  | cons step more ih =>
    cases step with
    | stay | up => exact ih h
    | down name =>
      rw [makeAll] at h
      by_cases long : Path.maxName < name.utf8ByteSize
      · rw [if_pos long] at h
        cases h
      · rw [if_neg long] at h
        cases found : t.node? (place ++ [name]) with
        | none =>
          rw [found] at h
          exact (ih h).cons_of_none found
        | some node =>
          rw [found] at h
          cases node with
          | file => cases h
          | directory => exact (ih h).cons_of_directory found

theorem adds_of_makeDirectories (checked : checkPath path = .ok ())
    (h : t.makeDirectories path = (t', .ok ())) :
    Adds t t' (passed (t.start path) path.steps) := by
  rw [makeDirectories, checked] at h
  exact adds_of_makeAll h

/-! Writing and moving a file. -/

theorem target_join_eq_ok : t.target (path.join name) = .ok q ↔
    t.resolve (path.join name) = .ok q ∧ t.node? q ≠ some .directory := by
  rw [target, resolve, bind_eq_ok, bind_eq_ok]
  have deep :
      ((path.join name).below.isEmpty && Path.endsInSlash (path.join name).base) = false := by
    simp
  simp only [deep, Bool.false_eq_true, if_false, bind_eq_ok]
  constructor
  · rintro ⟨⟨⟩, checked, q', walked, last⟩
    split at last
    · cases last
    · next free =>
      cases last
      exact ⟨⟨(), checked, walked⟩, free⟩
  · rintro ⟨⟨⟨⟩, checked, walked⟩, free⟩
    refine ⟨(), checked, q, walked, ?_⟩
    split
    · next there => exact absurd there free
    · rfl

theorem write_eq_ok (h : t.write path text = (t', .ok ())) :
    ∃ q, t.target path = .ok q ∧ t' = t.set q (.file text) := by
  rw [write] at h
  split at h
  · next q free =>
    cases h
    exact ⟨q, free, rfl⟩
  · cases h

theorem move_eq_ok {source goal : Path} (h : t.move source goal = (t', .ok ())) :
    ∃ q text q', t.resolve source = .ok q ∧ t.read source = .ok text ∧ t.target goal = .ok q' ∧
      t' = (t.erase q).set q' (.file text) := by
  rw [move] at h
  split at h
  · next q text q' found read free =>
    cases h
    exact ⟨q, text, q', found, read, free, rfl⟩
  all_goals cases h

end FileTree

end Dashboard
