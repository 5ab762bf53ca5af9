import Mathlib.Data.List.Infix
import Dashboard.Proofs.Compiler.Verdict
import Dashboard.Proofs.Store.Calls

/-!
A store is a map. Pages are saved, loaded and listed in any order, beginning with a root where there
is nothing, and no file operation fails: then what is loaded is what was saved last, what is listed
is what was saved, and every file but that of the page that is saved stays as it was. Only a root
whose path leads through a place inside itself, as `a/b/..` does, lists what stands on the way.
-/
namespace Dashboard

/-- What is asked of a store. -/
inductive Call where
  | save (document page source : String)
  | load (document page : String)
  | list
  deriving DecidableEq, Repr

inductive Answer where
  | saved (result : Except Failure SaveOutcome)
  | loaded (result : Except Failure Record)
  | listed (result : Except Failure (Dictionary (List String)))

/-- A file operation has failed. -/
def Answer.isFault : Answer → Bool
  | saved result => FileTask.isFault result
  | loaded result => FileTask.isFault result
  | listed result => FileTask.isFault result

namespace Store

open FileTask (perform)

/-! Calls on a tree. -/

def respond (s : Store) (now : Nat) : Call → FileTree → Answer × FileTree
  | .save document page source, t => (perform now (s.save document page source) t).map .saved id
  | .load document page, t => (perform now (s.load document page) t).map .loaded id
  | .list, t => (perform now s.list t).map .listed id

/-- The tree after calls, each at its own time. -/
def after (s : Store) (t : FileTree) (calls : List (Nat × Call)) : FileTree :=
  calls.foldl (fun t call => (s.respond call.1 call.2 t).2) t

def answers (s : Store) : List (Nat × Call) → FileTree → List Answer
  | [], _ => []
  | (now, call) :: more, t =>
    (s.respond now call t).1 :: answers s more (s.respond now call t).2

/-! The same calls on the map. -/

/-- The page that a call stores. -/
def stored? (s : Store) (now : Nat) : Call → Option (String × String × Record)
  | .save document page source =>
    (s.record? now document page source).map fun record => (document, page, record)
  | _ => none

def keep (s : Store) (archive : Archive) (now : Nat) (call : Call) : Archive :=
  match s.stored? now call with
  | some (document, page, record) => archive.put document page record
  | none => archive

/-- The pages that calls have stored, each as it was stored last. -/
def archive (s : Store) (calls : List (Nat × Call)) : Archive :=
  calls.foldl (fun archive call => s.keep archive call.1 call.2) .empty

/-- The answer that the map gives. -/
def IsAnswer (s : Store) (site : Site) (archive : Archive) : Call → Answer → Prop
  | .save document page source, answer => answer = .saved (s.saved document page source)
  | .load document page, answer => answer = .loaded (archive.load document page)
  | .list, answer =>
    ∃ documents, answer = .listed (.ok documents) ∧ IsListing site archive documents

/-- The path of the root is as it was given, and where it leads there is nothing, nor below. -/
structure IsFresh (s : Store) (t : FileTree) : Prop where
  given : s.root.below = []
  vacant : ∀ q, (s.site t).root <+: q → t.node? q = none

/-- A call is answered as by the map, and changes the files accordingly. -/
structure Serves (s : Store) (t : FileTree) (calls : List (Nat × Call)) (now : Nat) (call : Call) :
    Prop where
  answered : s.IsAnswer (s.site t) (s.archive calls) call (s.respond now call (s.after t calls)).1
  /-- A path that never goes up leads through nothing inside the root. -/
  direct : .up ∉ s.root.steps → s.IsAnswer ⟨(s.site t).root, []⟩ (s.archive calls) call
    (s.respond now call (s.after t calls)).1
  unchanged : s.stored? now call = none → (s.respond now call (s.after t calls)).2 = s.after t calls
  put : ∀ d p r, s.stored? now call = some (d, p, r) → ∀ q text,
    (s.respond now call (s.after t calls)).2.node? q = some (.file text) ↔
      if q = (s.site t).page d p then text = r.toJson.spread
      else (s.after t calls).node? q = some (.file text)
  loads : ∀ d p r, s.archive (calls ++ [(now, call)]) d p = some r →
    ∃ m, s.compiler.sandbox.load r.compiled = .ok m

variable {s : Store} {site : Site} {archive : Archive} {t t' : FileTree} {now : Nat} {call : Call}
  {calls : List (Nat × Call)} {d p source text : String} {r : Record}

/-- A store with a directory of its own. -/
def dashboards : Store := ⟨⟨"dashboards", []⟩, {}, "Overview.sql"⟩

theorem isFresh_dashboards : dashboards.IsFresh (.ofHome "work") where
  given := rfl
  vacant := by
    rintro q ⟨more, rfl⟩
    rfl

theorem answers_append (calls more : List (Nat × Call)) (t : FileTree) :
    s.answers (calls ++ more) t = s.answers calls t ++ s.answers more (s.after t calls) := by
  induction calls generalizing t with
  | nil => rfl
  | cons call later ih => exact congrArg _ (ih _)

theorem answers_pair (first second : Nat × Call) (t : FileTree) : s.answers [first, second] t =
    [(s.respond first.1 first.2 t).1, (s.respond second.1 second.2 (s.after t [first])).1] := rfl

theorem stored?_save : s.stored? now (.save d p source) =
    (s.record? now d p source).map fun r => (d, p, r) := rfl

theorem keep_of_none (h : s.stored? now call = none) : s.keep archive now call = archive := by
  rw [keep, h]

theorem keep_of_some (h : s.stored? now call = some (d, p, r)) :
    s.keep archive now call = archive.put d p r := by
  rw [keep, h]

/-- A save stores nothing for other documents. -/
theorem archive_save_of_ne {other : String} (apart : other ≠ d) (page : String) :
    s.archive [(now, .save d p source)] other page = none := by
  change s.keep .empty now (.save d p source) other page = none
  cases record : s.record? now d p source with
  | none =>
    rw [keep_of_none (by rw [stored?_save, record]; rfl)]
    rfl
  | some r =>
    rw [keep_of_some (by rw [stored?_save, record]; rfl)]
    exact Archive.put_of_ne fun same => apart same.1

/-- Only a save with valid names stores a page. -/
theorem isName_of_stored? (h : s.stored? now call = some (d, p, r)) :
    isName d = true ∧ isName p = true := by
  cases call with
  | load | list => cases h
  | save d' p' source =>
    obtain ⟨r', record, same⟩ := Option.map_eq_some_iff.mp h
    cases same
    rw [record?] at record
    split at record
    · next valid => exact Bool.and_eq_true_iff.mp valid
    · cases record

/-- What is stored was loaded when it was compiled. -/
theorem load_of_stored? (h : s.stored? now call = some (d, p, r)) :
    ∃ m, s.compiler.sandbox.load r.compiled = .ok m := by
  cases call with
  | load | list => cases h
  | save d' p' source =>
    obtain ⟨r', record, same⟩ := Option.map_eq_some_iff.mp h
    cases same
    rw [record?] at record
    split at record
    · dsimp only at record
      split at record
      · next built compiled =>
        cases record
        obtain ⟨-, text, g, -, -, loaded, code⟩ := Compiler.compile_eq_ok.mp compiled
        exact ⟨built.component, code ▸ loaded⟩
      · cases record
    · cases record

/-- What the archive holds was stored by one of the calls. -/
theorem load_of_archive (h : s.archive calls d p = some r) :
    ∃ m, s.compiler.sandbox.load r.compiled = .ok m := by
  induction calls using List.reverseRecOn with
  | nil => cases h
  | append_singleton earlier call ih =>
    rw [Store.archive, List.foldl_concat, ← Store.archive] at h
    cases stored : s.stored? call.1 call.2 with
    | none => exact ih (by rwa [keep_of_none stored] at h)
    | some put =>
      obtain ⟨d', p', r'⟩ := put
      rw [keep_of_some stored] at h
      by_cases same : d = d' ∧ p = p'
      · obtain ⟨rfl, rfl⟩ := same
        rw [Archive.put_self] at h
        cases h
        exact load_of_stored? stored
      · exact ih ((Archive.put_of_ne same).symm.trans h)

/-! What one call does. -/

/-- Beside the file of the page, putting it changes no file. -/
theorem Tracks.node?_file_of_puts (h : Tracks s site archive t) (puts : Puts s d p text t t')
    (q : Place) (other : String) : t'.node? q = some (.file other) ↔
      if q = site.page d p then other = text else t.node? q = some (.file other) := by
  obtain ⟨-, -, page, staging, kept, fresh, -, stagingApart, -, -⟩ := puts
  rw [h.site_eq] at page staging kept fresh stagingApart
  split_ifs with onPage
  · rw [onPage, page, Option.some.injEq, FileNode.file.injEq, eq_comm]
  by_cases onStaging : q = site.staging d p
  · rw [onStaging, staging]
    refine iff_of_false (fun none => nomatch none) fun there => ?_
    exact Site.not_holds_staging stagingApart
      ((h.node?_eq_some_iff (List.prefix_append _ _)).mp there)
  · refine ⟨fun found => ?_, kept q _ onPage onStaging⟩
    rcases fresh q _ onPage onStaging found with before | ⟨⟨⟩, -⟩
    exact before

/-- The answer to a call on a tree that holds the archive. -/
theorem Tracks.isAnswer_respond (h : Tracks s site archive t)
    (calm : (s.respond now call t).1.isFault = false) :
    s.IsAnswer site archive call (s.respond now call t).1 := by
  cases call with
  | save d p source => exact congrArg Answer.saved (perform_save calm).1
  | load d p => exact congrArg (fun result => Answer.loaded result.1) (perform_load h calm)
  | list =>
    obtain ⟨documents, whole, listing⟩ := h.perform_list calm
    exact ⟨documents, by rw [Store.respond, whole]; rfl, listing⟩

theorem Tracks.respond_of_none (h : Tracks s site archive t)
    (calm : (s.respond now call t).1.isFault = false) (none : s.stored? now call = none) :
    (s.respond now call t).2 = t := by
  cases call with
  | save d p source =>
    have effect := (perform_save calm).2
    rw [Option.map_eq_none_iff.mp none] at effect
    exact effect
  | load d p => exact congrArg Prod.snd (perform_load h calm)
  | list =>
    obtain ⟨documents, whole, -⟩ := h.perform_list calm
    exact congrArg Prod.snd whole

theorem puts_of_some (calm : (s.respond now call t).1.isFault = false)
    (some : s.stored? now call = some (d, p, r)) :
    Puts s d p r.toJson.spread t (s.respond now call t).2 := by
  cases call with
  | load | list => cases some
  | save d' p' source =>
    obtain ⟨r', record, same⟩ := Option.map_eq_some_iff.mp some
    cases same
    have effect := (perform_save calm).2
    rw [record] at effect
    exact effect

/-! What calls do one after another. -/

theorem IsFresh.tracks (h : s.IsFresh t) : Tracks s (s.site t) .empty t := by
  have inside : (s.site t).root ≠ [] := by
    intro top
    have absent := h.vacant _ List.prefix_rfl
    rw [top] at absent
    cases absent
  refine ⟨rfl, inside, fun q n below => ?_, nofun, nofun,
    fun used => absurd used Archive.not_isUsed_empty⟩
  have notRoot : q ≠ [] := by
    rintro rfl
    exact inside (List.prefix_nil.mp below)
  exact iff_of_false (FileTree.not_mem_of_node? notRoot (h.vacant q below))
    fun held => Archive.not_isUsed_empty held.isUsed

theorem Tracks.respond (h : Tracks s site archive t) (given : s.root.below = [])
    (calm : (s.respond now call t).1.isFault = false) :
    Tracks s site (s.keep archive now call) (s.respond now call t).2 := by
  cases stored : s.stored? now call with
  | none => rwa [keep_of_none stored, h.respond_of_none calm stored]
  | some put =>
    obtain ⟨d, p, r⟩ := put
    obtain ⟨validDocument, validPage⟩ := isName_of_stored? stored
    rw [keep_of_some stored]
    exact h.put given validDocument validPage (puts_of_some calm stored)

theorem Tracks.after (h : Tracks s site archive t) (given : s.root.below = [])
    (calm : ∀ answer ∈ s.answers calls t, answer.isFault = false) :
    Tracks s site (calls.foldl (fun archive call => s.keep archive call.1 call.2) archive)
      (s.after t calls) := by
  induction calls generalizing archive t with
  | nil => exact h
  | cons call more ih =>
    obtain ⟨first, later⟩ := List.forall_mem_cons.mp calm
    exact ih (h.respond given first) later

/-- Where the path of the root never goes up, a listing shows nothing but saved pages. -/
theorem IsListing.of_direct {documents : Dictionary (List String)}
    (h : IsListing (s.site t) archive documents) (forward : .up ∉ s.root.steps) :
    IsListing ⟨(s.site t).root, []⟩ archive documents := by
  have apart : ∀ more, more ≠ [] → (s.site t).root ++ more ∉ (s.site t).crossed := by
    intro more notEmpty passes
    have short := (FileTree.isPrefix_follow_of_mem_passed forward passes).length_le
    change ((s.site t).root ++ more).length ≤ (s.site t).root.length at short
    rw [List.length_append] at short
    have := List.length_pos_of_ne_nil notEmpty
    omega
  refine ⟨h.ordered, fun d => (h.mem_documents d).trans ?_, fun d pages found => ?_⟩
  · refine or_congr_right (iff_of_false (fun other => ?_) fun other => nomatch other.2.2)
    exact apart [d] (by simp) other.2.2
  · obtain ⟨sorted, members⟩ := h.mem_pages d pages found
    refine ⟨sorted, fun p => (members p).trans (or_congr_right ?_)⟩
    refine iff_of_false (fun other => ?_) fun other => nomatch other.2
    exact apart [d, pageFile p] (by simp) other.2

/-- Every call in a run from a root with nothing there is answered as by a map. -/
theorem serves_of_isFresh (fresh : s.IsFresh t) (calls : List (Nat × Call)) (now : Nat)
    (call : Call)
    (calm : ∀ answer ∈ s.answers (calls ++ [(now, call)]) t, answer.isFault = false) :
    s.Serves t calls now call := by
  rw [answers_append, List.forall_mem_append] at calm
  obtain ⟨earlier, last⟩ := calm
  have here : (s.respond now call (s.after t calls)).1.isFault = false :=
    last _ List.mem_cons_self
  have tracks : Tracks s (s.site t) (s.archive calls) (s.after t calls) :=
    fresh.tracks.after fresh.given earlier
  have answered := tracks.isAnswer_respond here
  refine ⟨answered, fun forward => ?_, tracks.respond_of_none here, fun d p r stored => ?_,
    fun d p r => load_of_archive⟩
  · cases call with
    | save | load => exact answered
    | list =>
      obtain ⟨documents, whole, listing⟩ := answered
      exact ⟨documents, whole, listing.of_direct forward⟩
  · exact tracks.node?_file_of_puts (puts_of_some here stored)

/-- The module of a chart alone. -/
def chartBuilt : CompiledModule :=
  (Compiler.compile {} "<Chart />" ("Overview" ++ ".dash")).outcome.toOption.getD ⟨"", {}⟩

/-- The chart with the standard imports. -/
def chartText : String :=
  "<script>\nimport Chart from \"Chart\";\nimport Filter from \"Filter\";\nimport Grid from \"Grid\";\n</script>\n<Chart />"

theorem outcome_chart :
    (Compiler.compile {} "<Chart />" ("Overview" ++ ".dash")).outcome = .ok chartBuilt := by
  have chars : "<Chart />".toList = _ := String.toList_ofList
  have text : chartText.toList = _ := String.toList_ofList
  have prepared : preprocess "<Chart />" = .ok chartText := by
    refine Markup.preprocess_of_toList (Markup.importing_eq.trans String.toList_ofList) ?_
    rw [Markup.parse_of_toList chars, chars, text]
    decide +kernel
  have within : ((preprocess "<Chart />").toOption.bind fun text =>
      (generate text ("Overview" ++ ".dash")).toOption).all fun g => !decide (g.IsBeyond {}) := by
    rw [prepared, Except.toOption, Option.bind_some]
    refine generate_of_toList (fun outcome => outcome.toOption.all fun g => !decide (g.IsBeyond {})) text ?_
    decide +kernel
  obtain ⟨built, compiled⟩ := @exists_compiled "<Chart />" ("Overview" ++ ".dash") {}
    (by decide +kernel) (by decide +kernel) within
  have same : (Compiler.compile {} "<Chart />" ("Overview" ++ ".dash")).outcome = .ok built := compiled
  rw [chartBuilt, same]
  rfl

theorem serves_of_isFresh_dashboards :
    dashboards.IsFresh (.ofHome "work") ∧
      (∀ answer ∈ dashboards.answers
        ([(0, .save "sales" "Overview" "<Chart />")] ++ [(5, .list)]) (.ofHome "work"),
        answer.isFault = false) ∧
      dashboards.Serves (.ofHome "work") [(0, .save "sales" "Overview" "<Chart />")] 5 .list := by
  have calm : ∀ answer ∈ dashboards.answers
      ([(0, .save "sales" "Overview" "<Chart />")] ++ [(5, .list)]) (.ofHome "work"),
      answer.isFault = false := by
    simp only [List.singleton_append, answers, respond, @save_of_compiled dashboards _ _ _ _ outcome_chart]
    decide
  exact ⟨isFresh_dashboards, calm, serves_of_isFresh isFresh_dashboards _ _ _ calm⟩

/-- From a root that is not there, a page of the document `sales` is saved; then another document is
listed as well. -/
structure Strays (s : Store) (t : FileTree) (other : String) : Prop where
  absent : t.resolve s.root = .error .missing
  calm : ∀ answer ∈ s.answers [(0, .save "sales" "Overview" "<Chart />"), (0, .list)] t,
    answer.isFault = false
  listed : ∃ documents, (s.respond 0 .list
    (s.after t [(0, .save "sales" "Overview" "<Chart />")])).1 = .listed (.ok documents) ∧
      documents.contains other = true
  never_saved : ∀ page, s.archive [(0, .save "sales" "Overview" "<Chart />")] other page = none

theorem Strays.of_answers {other : String} (absent : t.resolve s.root = .error .missing)
    (answered : (match s.answers [(0, .save "sales" "Overview" "<Chart />"), (0, .list)] t with
      | [.saved (.ok _), .listed (.ok documents)] => Dictionary.contains documents other
      | _ => false) = true)
    (apart : other ≠ "sales") : s.Strays t other where
  absent := absent
  calm := by
    split at answered
    · next whole =>
      rw [whole]
      simp [Answer.isFault, FileTask.isFault]
    · cases answered
  listed := by
    split at answered
    · next documents whole =>
      rw [answers_pair] at whole
      injection whole with first later
      injection later with second
      exact ⟨documents, second, answered⟩
    · cases answered
  never_saved := archive_save_of_ne apart

/-- What stands on the way to a root is listed with the documents, whether the path of the root goes
into the root and up again, or through a place that is not there to one with directories in it. -/
theorem strays_of_winding :
    ((⟨⟨"a/b/..", []⟩, {}, "Overview.sql"⟩ : Store).IsFresh (.ofHome "work") ∧
      (⟨⟨"a/b/..", []⟩, {}, "Overview.sql"⟩ : Store).Strays (.ofHome "work") "b") ∧
    (⟨⟨"a/../b", []⟩, {}, "Overview.sql"⟩ : Store).Strays
      (((FileTree.ofHome "work").set ["work", "b"] .directory).set ["work", "b", "old"] .directory)
      "old" := by
  refine ⟨⟨⟨rfl, ?_⟩, ?_⟩, ?_⟩
  · rintro q ⟨more, rfl⟩
    rfl
  all_goals
    refine .of_answers rfl ?_ (by decide)
    rw [answers, answers, answers, respond, @save_of_compiled ⟨_, {}, _⟩ _ _ _ _ outcome_chart]
    decide +kernel

end Store

end Dashboard
