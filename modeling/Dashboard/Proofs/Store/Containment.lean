import Dashboard.Proofs.Store.Calls
import Dashboard.Proofs.Text

/-!
A store keeps to the directory of a document below its root. A file system is given the text of a
path and walks it anew, so a path is below another one when its text is walked as the other's and
then down by names alone. Every request that an operation makes is for such a path, whatever it was
answered before; with a name that is more than one step it makes none.
-/
namespace Dashboard

namespace Path

/-- A text as a path. -/
def ofText (text : String) : Path := ⟨text, []⟩

/-- The steps of a path that lead somewhere. -/
def moves (p : Path) : List Step := p.steps.filter (· ≠ .stay)

/-- A name that is a single component of a path, and leads down to an entry. -/
structure IsComponent (name : String) : Prop where
  notEmpty : name ≠ ""
  noSlash : '/' ∉ name.toList
  noBackslash : '\\' ∉ name.toList
  notHere : name ≠ "."
  notUp : name ≠ ".."

/-- A path that goes down from another one by names, and does so when its text is read as a path. -/
structure IsBelow (root : Path) (names : List String) (p : Path) : Prop where
  eq : p = names.foldl join root
  component : ∀ name ∈ names, IsComponent name
  isAbsolute : (ofText p.text).isAbsolute = (ofText root.text).isAbsolute
  moves : (ofText p.text).moves = (ofText root.text).moves ++ names.map .down

variable {root p : Path} {name text : String} {names : List String}

theorem IsComponent.ofPiece (h : IsComponent name) : Step.ofPiece name.toList = .down name := by
  rw [Step.ofPiece.eq_def]
  split
  · next empty => exact absurd (String.toList_inj.mp empty) h.notEmpty
  · next here => exact absurd (String.toList_inj.mp here) h.notHere
  · next up => exact absurd (String.toList_inj.mp up) h.notUp
  · rw [String.ofList_toList]

theorem moves_ofText_empty : (ofText "").moves = [] := rfl

theorem IsComponent.moves_ofText (h : IsComponent name) : (ofText name).moves = [.down name] := by
  rw [moves, steps, ofText, Text.pieces_eq_singleton h.noSlash, List.map_nil, List.append_nil,
    List.map_singleton, h.ofPiece]
  rfl

/-- A slash ends one part of a path and begins the next. -/
theorem moves_ofText_slash (front back : List Char) :
    (ofText (String.ofList (front ++ '/' :: back))).moves =
      (ofText (String.ofList front)).moves ++ (ofText (String.ofList back)).moves := by
  simp only [moves, steps, ofText, String.toList_ofList, Text.pieces_append_separator,
    List.map_append, List.map_nil, List.append_nil, List.filter_append]

theorem moves_ofText_append_slash (text rest : String) :
    (ofText (text ++ "/" ++ rest)).moves = (ofText text).moves ++ (ofText rest).moves := by
  have whole : text ++ "/" ++ rest = String.ofList (text.toList ++ '/' :: rest.toList) := by
    rw [← String.toList_inj]
    simp
  rw [whole, moves_ofText_slash, String.ofList_toList, String.ofList_toList]

theorem exists_of_endsInSlash (h : endsInSlash text = true) : ∃ front, text = front ++ "/" := by
  obtain ⟨front, shape⟩ := List.getLast?_eq_some_iff.mp (of_decide_eq_true h)
  refine ⟨String.ofList front, ?_⟩
  rw [← String.toList_inj, shape]
  simp

/-- Whichever way a name is put behind a path, it is one more step down. -/
theorem moves_text_join (h : IsComponent name) :
    (ofText (p.join name).text).moves = (ofText p.text).moves ++ [.down name] := by
  rw [text_join, ← h.moves_ofText]
  split
  · next direct =>
    rcases Bool.or_eq_true_iff.mp direct with empty | ends
    · rw [String.isEmpty_iff.mp empty, String.empty_append, moves_ofText_empty, List.nil_append]
    · obtain ⟨front, shape⟩ := exists_of_endsInSlash ends
      have closed := moves_ofText_append_slash front ""
      rw [String.append_empty, moves_ofText_empty, List.append_nil] at closed
      rw [shape, moves_ofText_append_slash, closed]
  · exact moves_ofText_append_slash _ _

theorem isAbsolute_text_join (h : IsComponent name) :
    (ofText (p.join name).text).isAbsolute = (ofText p.text).isAbsolute := by
  by_cases empty : p.text = ""
  · have relative : (ofText name).isAbsolute = false :=
      decide_eq_false fun first => h.noSlash (List.mem_of_mem_head? first)
    have only : (p.join name).text = name := by
      rw [text_join, if_pos (by simp [empty]), empty, String.empty_append]
    rw [only, empty, relative]
    rfl
  · obtain ⟨between, shape⟩ := p.exists_text_join name
    obtain ⟨c, more, chars⟩ :=
      List.exists_cons_of_ne_nil fun none => empty (String.toList_inj.mp none)
    simp [isAbsolute, ofText, shape, chars]

namespace IsBelow

theorem refl (root : Path) : IsBelow root [] root :=
  ⟨rfl, fun _ none => absurd none List.not_mem_nil, rfl, (List.append_nil _).symm⟩

theorem join (h : IsBelow root names p) (one : IsComponent name) :
    IsBelow root (names ++ [name]) (p.join name) := by
  refine ⟨?_, ?_, (isAbsolute_text_join one).trans h.isAbsolute, ?_⟩
  · rw [List.foldl_append, ← h.eq]
    rfl
  · intro other member
    rcases List.mem_append.mp member with before | last
    · exact h.component other before
    · exact List.mem_singleton.mp last ▸ one
  · rw [moves_text_join one, h.moves, List.map_append, List.append_assoc]
    rfl

end IsBelow

end Path

open Dashboard.Path (IsComponent IsBelow)

/-! The requests of a program. -/

/-- What a program asks a file system. -/
inductive FileRequest where
  | read (path : Path)
  | write (path : Path) (text : String)
  | makeDirectories (path : Path)
  | move (source target : Path)
  | entries (path : Path)
  | isFile (path : Path)

namespace FileRequest

/-- The paths of files in a request. -/
def files : FileRequest → List Path
  | read path | write path _ | isFile path => [path]
  | move source target => [source, target]
  | makeDirectories _ | entries _ => []

/-- The paths of directories in a request. -/
def directories : FileRequest → List Path
  | makeDirectories path | entries path => [path]
  | read _ | write .. | move .. | isFile _ => []

/-- A request for files that lie in the directory of a document below a root, and for no directory
but that one. -/
structure StaysIn (root : Path) (document : String) (request : FileRequest) : Prop where
  file : ∀ path ∈ request.files, ∃ leaf, IsBelow root [document, leaf] path
  directory : ∀ path ∈ request.directories, IsBelow root [document] path

end FileRequest

open FileRequest (StaysIn)

variable {α β : Type} {P : FileRequest → Prop}

/-- Each request of a program has a property, whatever the requests before it were answered. -/
def FileProgram.AsksOnly (P : FileRequest → Prop) : FileProgram α → Prop
  | done _ => True
  | read path next => P (.read path) ∧ ∀ answer, AsksOnly P (next answer)
  | write path text next => P (.write path text) ∧ ∀ answer, AsksOnly P (next answer)
  | makeDirectories path next => P (.makeDirectories path) ∧ ∀ answer, AsksOnly P (next answer)
  | move source target next => P (.move source target) ∧ ∀ answer, AsksOnly P (next answer)
  | entries path next => P (.entries path) ∧ ∀ answer, AsksOnly P (next answer)
  | isFile path next => P (.isFile path) ∧ ∀ answer, AsksOnly P (next answer)
  | time next => ∀ answer, AsksOnly P (next answer)

theorem FileProgram.AsksOnly.bind {p : FileProgram α} {f : α → FileProgram β} (first : p.AsksOnly P)
    (later : ∀ a, (f a).AsksOnly P) : (FileProgram.bind f p).AsksOnly P := by
  induction p with
  | done a => exact later a
  | time next ih => exact fun answer => ih answer (first answer)
  | read path next ih | write path text next ih | makeDirectories path next ih
  | move source target next ih | entries path next ih | isFile path next ih =>
    exact ⟨first.1, fun answer => ih answer (first.2 answer)⟩

namespace FileTask

variable {task : FileTask α} {f : α → FileTask β} {path source target : Path} {text : String}

def AsksOnly (P : FileRequest → Prop) (task : FileTask α) : Prop := FileProgram.AsksOnly P task.run

/-- A task that makes no request, and fails for the store's reasons. -/
def IsRefused (task : FileTask α) : Prop :=
  ∃ message, task.run = .done (.error (.storage message))

theorem AsksOnly.bind (first : task.AsksOnly P) (later : ∀ a, (f a).AsksOnly P) :
    (task >>= f).AsksOnly P := by
  rw [AsksOnly, ExceptT.run_bind]
  refine FileProgram.AsksOnly.bind first fun result => ?_
  cases result with
  | ok a => exact later a
  | error => trivial

theorem asksOnly_pure (a : α) : (pure a : FileTask α).AsksOnly P := trivial

theorem asksOnly_throw (e : Failure) : (throw e : FileTask α).AsksOnly P := trivial

theorem asksOnly_now : FileTask.now.AsksOnly P := fun _ => trivial

theorem asksOnly_write (h : P (.write path text)) : (write path text).AsksOnly P :=
  ⟨h, fun _ => trivial⟩

theorem asksOnly_makeDirectories (h : P (.makeDirectories path)) :
    (makeDirectories path).AsksOnly P :=
  ⟨h, fun _ => trivial⟩

theorem asksOnly_move (h : P (.move source target)) : (move source target).AsksOnly P :=
  ⟨h, fun _ => trivial⟩

theorem asksOnly_readOr (h : P (.read path)) (absent : Except Failure String) :
    (readOr absent path).AsksOnly P := by
  refine ⟨h, fun answer => ?_⟩
  dsimp only
  split <;> trivial

end FileTask

namespace Store

variable {s : Store} {document page source name ending : String}

/-! The names of the files. -/

theorem isComponent_of_isPlainName (h : Config.isPlainName name = true) : IsComponent name := by
  obtain ⟨front, noDot⟩ := Bool.and_eq_true_iff.mp h
  obtain ⟨notEmpty, plain⟩ := Bool.and_eq_true_iff.mp front
  refine ⟨?_, fun slash => ?_, fun backslash => ?_, ?_, ?_⟩
  · rintro rfl
    cases notEmpty
  · cases List.all_eq_true.mp plain '/' slash
  · cases List.all_eq_true.mp plain '\\' backslash
  · rintro rfl
    cases noDot
  · rintro rfl
    cases noDot

/-- What is put behind a name does not change how it begins. -/
theorem isComponent_append (h : isName name = true)
    (plain : ending.toList.all (fun c => c ≠ '/' && c ≠ '\\') = true) :
    IsComponent (name ++ ending) := by
  obtain ⟨notEmpty, valid⟩ := Bool.and_eq_true_iff.mp h
  have plainName : ∀ c, isNameChar c = true → c ≠ '/' ∧ c ≠ '\\' ∧ c ≠ '.' := by
    intro c named
    refine ⟨?_, ?_, ?_⟩ <;> (rintro rfl; cases named)
  obtain ⟨c, more, chars⟩ :=
    List.exists_cons_of_ne_nil fun none => ne_empty_of_isName h (String.toList_inj.mp none)
  rw [chars] at valid
  apply isComponent_of_isPlainName
  have first := (plainName c (List.all_eq_true.mp valid c List.mem_cons_self)).2.2
  have clean : name.toList.all (fun c => c ≠ '/' && c ≠ '\\') = true := by
    rw [List.all_eq_true, chars]
    intro c member
    obtain ⟨slash, backslash, -⟩ := plainName c (List.all_eq_true.mp valid c member)
    simp [slash, backslash]
  simp only [Config.isPlainName, String.toList_append, List.all_append, clean, plain]
  simp [chars, first, ne_empty_of_isName h]

theorem isComponent_of_isName (h : isName name = true) : IsComponent name := by
  have whole : IsComponent (name ++ "") := isComponent_append h rfl
  rwa [String.append_empty] at whole

theorem isComponent_pageFile (h : isName page = true) : IsComponent (pageFile page) :=
  isComponent_append h (by decide)

theorem isComponent_staging (h : isName page = true) : IsComponent (pageFile page ++ ".tmp") := by
  rw [pageFile, String.append_assoc]
  exact isComponent_append h (by decide)

theorem isPlainName_of_ofText {text : String} {config : Config}
    (accepted : Config.ofText text = .ok config) : Config.isPlainName config.queryFile = true := by
  rw [Config.ofText] at accepted
  split at accepted
  · cases accepted
  · obtain ⟨found, -, rest⟩ := bind_eq_ok.mp accepted
    obtain ⟨⟨⟩, checked, same⟩ := bind_eq_ok.mp rest
    cases same
    rw [Config.validate] at checked
    split_ifs at checked with _ _ _ plain
    simpa using plain

/-! What the operations ask for. -/

theorem isBelow_document (root : Path) (h : isName document = true) :
    IsBelow root [document] (root.join document) :=
  (IsBelow.refl root).join (isComponent_of_isName h)

theorem isBelow_leaf (root : Path) (h : isName document = true) (leaf : IsComponent name) :
    IsBelow root [document, name] ((root.join document).join name) :=
  (isBelow_document root h).join leaf

theorem staysIn_file {root path : Path} {request : FileRequest}
    (h : IsBelow root [document, name] path) (files : request.files = [path])
    (directories : request.directories = []) : StaysIn root document request := by
  constructor
  · rw [files]
    exact fun other same => ⟨name, List.mem_singleton.mp same ▸ h⟩
  · rw [directories]
    exact fun other none => absurd none List.not_mem_nil

theorem staysIn_move {root source target : Path} {other : String}
    (hs : IsBelow root [document, name] source) (ht : IsBelow root [document, other] target) :
    StaysIn root document (.move source target) := by
  refine ⟨fun path member => ?_, fun _ none => absurd none List.not_mem_nil⟩
  rcases List.mem_cons.mp member with rfl | last
  · exact ⟨name, hs⟩
  · exact ⟨other, List.mem_singleton.mp last ▸ ht⟩

theorem staysIn_makeDirectories {root path : Path} (h : IsBelow root [document] path) :
    StaysIn root document (.makeDirectories path) :=
  ⟨fun _ none => absurd none List.not_mem_nil, fun _ same => List.mem_singleton.mp same ▸ h⟩

theorem asksOnly_checked_bind {result : Except StoreError α} {f : α → FileTask β}
    (later : ∀ a, result = .ok a → (f a).AsksOnly P) : (checked result >>= f).AsksOnly P := by
  cases result with
  | error => trivial
  | ok a => exact later a rfl

theorem isRefused_checked_bind {result : Except StoreError α} (f : α → FileTask β)
    (refused : ∀ a, result ≠ .ok a) : (checked result >>= f).IsRefused := by
  cases result with
  | error e => exact ⟨e.message, rfl⟩
  | ok a => exact absurd rfl (refused a)

theorem directory_eq_ok {path : Path} :
    s.directory document = .ok path ↔ isName document = true ∧ path = s.root.join document := by
  rw [directory, checkName]
  cases valid : isName document with
  | false => simp [bind, Except.bind]
  | true =>
    rw [Path.push_eq_join _ (slash_not_mem_of_isName valid)]
    exact ⟨fun same => ⟨rfl, (Except.ok.inj same).symm⟩, fun found => congrArg _ found.2.symm⟩

theorem pagePaths_eq_ok {paths : PagePaths} : s.pagePaths document page = .ok paths ↔
    (isName document = true ∧ isName page = true) ∧ paths = s.paths document page := by
  rw [pagePaths_eq, ← checkNames_eq_ok]
  cases checkNames document page with
  | error => simp [Except.map]
  | ok =>
    exact ⟨fun same => ⟨rfl, (Except.ok.inj same).symm⟩, fun found => congrArg _ found.2.symm⟩

theorem asksOnly_save (s : Store) (document page source : String) :
    (s.save document page source).AsksOnly (StaysIn s.root document) := by
  refine asksOnly_checked_bind fun paths found => ?_
  obtain ⟨⟨validDocument, validPage⟩, rfl⟩ := pagePaths_eq_ok.mp found
  have directory := isBelow_document s.root validDocument
  have file := isBelow_leaf s.root validDocument (isComponent_pageFile validPage)
  have staging := isBelow_leaf s.root validDocument (isComponent_staging validPage)
  dsimp only
  split
  · exact FileTask.asksOnly_pure _
  · refine FileTask.asksOnly_now.bind fun time => ?_
    refine (FileTask.asksOnly_makeDirectories (staysIn_makeDirectories directory)).bind fun _ => ?_
    refine (FileTask.asksOnly_write (staysIn_file staging rfl rfl)).bind fun _ => ?_
    refine (FileTask.asksOnly_move (staysIn_move staging file)).bind fun _ => ?_
    exact FileTask.asksOnly_pure _

theorem asksOnly_load (s : Store) (document page : String) :
    (s.load document page).AsksOnly (StaysIn s.root document) := by
  refine asksOnly_checked_bind fun paths found => ?_
  obtain ⟨⟨validDocument, validPage⟩, rfl⟩ := pagePaths_eq_ok.mp found
  have file := isBelow_leaf s.root validDocument (isComponent_pageFile validPage)
  refine (FileTask.asksOnly_readOr (staysIn_file file rfl rfl) _).bind fun text => ?_
  split
  · exact FileTask.asksOnly_pure _
  · exact FileTask.asksOnly_throw _

/-- The name of the query file is not checked here: where it is a path, that is where it leads. -/
theorem asksOnly_loadQueries (s : Store) (plain : IsComponent s.queryFile) (document : String) :
    (s.loadQueries document).AsksOnly (StaysIn s.root document) := by
  refine asksOnly_checked_bind fun path found => ?_
  obtain ⟨validDocument, rfl⟩ := directory_eq_ok.mp found
  have leaf := isBelow_leaf s.root validDocument plain
  rw [Path.push_eq_join _ plain.noSlash]
  exact FileTask.asksOnly_readOr (staysIn_file leaf rfl rfl) _

/-- Under settings that were accepted, every file that a page or the queries of a document are read
from or written to lies in the document's directory, and that in the root. With a name that is not
a single component there is an error before any file is touched. -/
theorem staysIn_of_accepted {text : String} {config : Config}
    (accepted : Config.ofText text = .ok config) (document page source : String) :
    let s := ofConfig config
    ((s.save document page source).AsksOnly (StaysIn (.ofText config.root) document) ∧
      (s.load document page).AsksOnly (StaysIn (.ofText config.root) document) ∧
      (s.loadQueries document).AsksOnly (StaysIn (.ofText config.root) document)) ∧
    (¬(IsComponent document ∧ IsComponent page) →
      (s.save document page source).IsRefused ∧ (s.load document page).IsRefused) ∧
    (¬IsComponent document → (s.loadQueries document).IsRefused) := by
  refine ⟨⟨asksOnly_save (ofConfig config) _ _ _, asksOnly_load (ofConfig config) _ _, ?_⟩, ?_, ?_⟩
  · have plain := isComponent_of_isPlainName (isPlainName_of_ofText accepted)
    exact asksOnly_loadQueries (ofConfig config) plain _
  · intro bad
    have refused (paths : PagePaths) : (ofConfig config).pagePaths document page ≠ .ok paths := by
      intro found
      obtain ⟨⟨validDocument, validPage⟩, -⟩ := pagePaths_eq_ok.mp found
      exact bad ⟨isComponent_of_isName validDocument, isComponent_of_isName validPage⟩
    exact ⟨isRefused_checked_bind _ refused, isRefused_checked_bind _ refused⟩
  · intro bad
    refine isRefused_checked_bind _ fun path found => ?_
    exact bad (isComponent_of_isName (directory_eq_ok.mp found).1)

/-- A page whose name leads out of its document's directory. -/
theorem staysIn_of_accepted_escaping :
    Config.ofText "[data]\nquery_file = \"Q.sql\"" = .ok { queryFile := "Q.sql" } ∧
    ¬(IsComponent "sales" ∧ IsComponent "../x") ∧
    ((ofConfig { queryFile := "Q.sql" }).loadQueries "sales").AsksOnly
      (StaysIn (.ofText "dashboards") "sales") ∧
    ((ofConfig { queryFile := "Q.sql" }).load "sales" "../x").IsRefused := by
  have accepted : Config.ofText "[data]\nquery_file = \"Q.sql\"" = .ok { queryFile := "Q.sql" } := by
    decide +kernel
  have bad : ¬(IsComponent "sales" ∧ IsComponent "../x") := fun h => h.2.noSlash (by decide)
  have whole := staysIn_of_accepted accepted "sales" "../x" ""
  exact ⟨accepted, bad, whole.1.2.2, (whole.2.1 bad).2⟩

end Store

end Dashboard
