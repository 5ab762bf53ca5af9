import Mathlib.Tactic.SplitIfs
import Dashboard.Proofs.Store.Layout

/-!
What the operations of a store come to on a tree that holds its pages, where no file operation
fails: a page that compiles is put into the tree, a page is loaded as it was put, and the listing
shows what is there.
-/
namespace Dashboard.Store

open FileTask (isFault perform)
open FileTree (follow)

variable {s : Store} {site : Site} {archive : Archive} {t t' : FileTree} {now : Nat}
  {d p source text : String} {r : Record}

/-! Names are checked first. -/

/-- The page's name is checked before the document's. -/
def checkNames (document page : String) : Except StoreError Unit := do
  checkName .page page
  checkName .document document

theorem checkNames_eq_ok :
    checkNames d p = .ok () ↔ isName d = true ∧ isName p = true := by
  cases page : isName p <;> cases document : isName d <;>
    simp [checkNames, checkName, page, document, bind, Except.bind]

theorem pagePaths_eq (s : Store) (d p : String) :
    s.pagePaths d p = (checkNames d p).map fun _ => s.paths d p := by
  rw [pagePaths, directory, checkNames]
  cases valid : isName p with
  | false => simp [checkName, valid, bind, Except.bind, Except.map]
  | true =>
    have slash := slash_not_mem_of_isName valid
    have file : '/' ∉ (pageFile p).toList := by simp [pageFile, slash]
    have staging : '/' ∉ (pageFile p ++ ".tmp").toList := by simp [pageFile, slash]
    rw [staging_eq valid, checkName, if_pos valid]
    cases document : isName d with
    | false => simp [checkName, document, bind, Except.bind, Except.map]
    | true =>
      rw [checkName, if_pos document]
      change Except.ok _ = Except.ok _
      rw [Path.push_eq_join _ (slash_not_mem_of_isName document), Path.push_eq_join _ file,
        Path.push_eq_join _ staging]
      rfl

theorem perform_pagePaths (now : Nat) (t : FileTree) (s : Store) (d p : String) :
    perform now (checked (s.pagePaths d p)) t =
      (((checkNames d p).map fun _ => s.paths d p).mapError StoreError.failure, t) := by
  rw [pagePaths_eq]
  exact FileTask.perform_ofExcept _

/-! Saving. -/

/-- The record that a source is stored as, if its names are valid and it compiles. -/
def record? (s : Store) (now : Nat) (document page source : String) : Option Record :=
  if isName document && isName page then
    let artifact := s.compiler.compile source (page ++ ".dash")
    match artifact.outcome with
    | .ok built =>
      some ⟨source, built.code, artifact.warnings.map Warning.message, Instant.text now⟩
    | .error _ => none
  else none

/-- What a save is answered where no file operation fails. -/
def saved (s : Store) (document page source : String) : Except Failure SaveOutcome :=
  match checkNames document page with
  | .error e => .error e.failure
  | .ok () =>
    let artifact := s.compiler.compile source (page ++ ".dash")
    match artifact.outcome with
    | .error failure => .ok (.rejected failure artifact.warnings)
    | .ok _ => .ok (.saved document page artifact.warnings)

theorem record?_of_not_valid (h : checkNames d p ≠ .ok ()) : s.record? now d p source = none := by
  rw [record?, if_neg]
  intro valid
  exact h (checkNames_eq_ok.mpr (Bool.and_eq_true_iff.mp valid))

theorem save_of_compiled {built : CompiledModule}
    (compiled : (s.compiler.compile source (p ++ ".dash")).outcome = .ok built) :
    s.save d p source = do
      let paths ← checked (s.pagePaths d p)
      let artifact := s.compiler.compile source (p ++ ".dash")
      let time ← FileTask.now
      let record : Record :=
        ⟨source, built.code, artifact.warnings.map Warning.message, Instant.text time⟩
      FileTask.makeDirectories paths.directory
      FileTask.write paths.staging record.toJson.spread
      FileTask.move paths.staging paths.file
      return .saved d p artifact.warnings := by
  rw [save]
  simp only [compiled]

/-- A save changes the tree only to put a record into it. -/
theorem perform_save (calm : isFault (perform now (s.save d p source) t).1 = false) :
    (perform now (s.save d p source) t).1 = s.saved d p source ∧
      match s.record? now d p source with
      | none => (perform now (s.save d p source) t).2 = t
      | some r => Puts s d p r.toJson.spread t (perform now (s.save d p source) t).2 := by
  have first := perform_pagePaths now t s d p
  cases names : checkNames d p with
  | error e =>
    rw [names] at first
    have whole : perform now (s.save d p source) t = (.error e.failure, t) :=
      FileTask.perform_bind_of_error first
    rw [whole, saved, names, record?_of_not_valid (by simp [names])]
    exact ⟨rfl, rfl⟩
  | ok =>
    rw [names] at first
    obtain ⟨validDocument, validPage⟩ := checkNames_eq_ok.mp names
    rw [save, FileTask.perform_bind_of_ok first] at calm ⊢
    rw [saved, names, record?, validDocument, validPage]
    dsimp only at calm ⊢
    cases compiled : (s.compiler.compile source (p ++ ".dash")).outcome with
    | error failure => exact ⟨rfl, rfl⟩
    | ok built =>
      rw [compiled] at calm
      dsimp only [Bool.and_self, if_true] at calm ⊢
      rw [FileTask.perform_bind_of_ok FileTask.perform_now] at calm ⊢
      obtain ⟨⟨⟩, make, made⟩ :=
        FileTask.perform_bind_of_not_isFault (FileTask.perform_makeDirectories _) calm
      rw [made] at calm ⊢
      obtain ⟨⟨⟩, write, wrote⟩ :=
        FileTask.perform_bind_of_not_isFault (FileTask.perform_write _ _) calm
      rw [wrote] at calm ⊢
      obtain ⟨⟨⟩, move, moved⟩ :=
        FileTask.perform_bind_of_not_isFault (FileTask.perform_move _ _) calm
      rw [moved]
      have saves := saves_of_moved (ne_empty_of_isName validDocument) (Prod.ext rfl make)
        (Prod.ext rfl write) (Prod.ext rfl move)
      exact ⟨rfl, saves.puts⟩

/-! Loading. -/

theorem pageFile_ne_empty (page : String) : pageFile page ≠ "" := fun none =>
  absurd (String.append_eq_empty_iff.mp none).2 (by decide)

/-- What a load is answered where no file operation fails. -/
def Archive.load (archive : Archive) (document page : String) : Except Failure Record :=
  match checkNames document page with
  | .error e => .error e.failure
  | .ok () =>
    match archive document page with
    | some record => .ok record
    | none => .error StoreError.notFound.failure

namespace Tracks

variable (h : Tracks s site archive t)

include h

/-- A file of a page that can be read is one that was put. -/
theorem stored_of_read (read : t.read (s.paths d p).file = .ok text) :
    ∃ r, archive d p = some r ∧ text = r.toJson.spread := by
  obtain ⟨q, found, there⟩ := FileTree.read_eq_ok.mp read
  obtain ⟨place, -, -⟩ := resolve_below found
  rw [h.site_eq] at place
  subst place
  have held := (h.node?_eq_some_iff (site.below_page d p)).mp there
  obtain ⟨d', p', r, stored, same, rfl⟩ := Site.holds_file.mp held
  obtain ⟨rfl, rfl⟩ := site.page_injective same
  exact ⟨r, stored, rfl⟩

/-- A page that was put is not missing, though its path may be too long to be read. -/
theorem read_ne_missing (stored : archive d p = some r) :
    t.read (s.paths d p).file ≠ .error .missing := by
  obtain ⟨found, there⟩ := h.rooted ⟨d, p, r, stored⟩
  obtain ⟨-, walked⟩ := FileTree.resolve_eq_ok.mp found
  have document : t.node? (site.root ++ [d]) = some .directory :=
    (h.node?_eq_some_iff (List.prefix_append _ _)).mpr (.document stored)
  have page : t.node? (site.root ++ [d] ++ [pageFile p]) = some (.file r.toJson.spread) := by
    rw [List.append_assoc]
    exact (h.node?_eq_some_iff (List.prefix_append _ _)).mpr (.page stored)
  have walk : t.walk (t.start (s.paths d p).file) (s.paths d p).file.steps =
      if Path.maxName < d.utf8ByteSize then .error .tooLong
      else if Path.maxName < (pageFile p).utf8ByteSize then .error .tooLong
      else .ok (site.root ++ [d] ++ [pageFile p]) := by
    rw [paths, FileTree.start_join, FileTree.start_join, Path.steps_join, Path.steps_join,
      List.append_assoc, FileTree.walk_append, walked, ok_bind, List.singleton_append,
      FileTree.walk_down there, FileTree.walk_down document]
    rfl
  intro missing
  rw [FileTree.read, bind_eq_error] at missing
  rcases missing with missing | ⟨q, reached, missing⟩
  · rw [FileTree.resolve, bind_eq_error] at missing
    rcases missing with unnamed | ⟨-, -, missing⟩
    · exact FileTree.checkPath_ne_missing (Path.text_join_ne_empty (pageFile_ne_empty p)) unnamed
    · rw [walk] at missing
      split_ifs at missing <;> cases missing
  · obtain ⟨rfl, -, -⟩ := resolve_below reached
    rw [h.site_eq, ← List.singleton_append, ← List.append_assoc, page] at missing
    cases missing

end Tracks

theorem perform_load (h : Tracks s site archive t)
    (calm : isFault (perform now (s.load d p) t).1 = false) :
    perform now (s.load d p) t = (archive.load d p, t) := by
  have first := perform_pagePaths now t s d p
  cases names : checkNames d p with
  | error e =>
    rw [names] at first
    rw [Archive.load, names]
    exact FileTask.perform_bind_of_error first
  | ok =>
    rw [names] at first
    rw [load, FileTask.perform_bind_of_ok first] at calm ⊢
    rw [Archive.load, names]
    dsimp only at calm ⊢
    by_cases missing : t.read (s.paths d p).file = .error .missing
    · have none : archive d p = none := by
        cases stored : archive d p with
        | none => rfl
        | some r => exact absurd missing (h.read_ne_missing stored)
      rw [none]
      exact FileTask.perform_bind_of_error (FileTask.perform_readOr_of_missing missing _)
    · obtain ⟨text, read, next⟩ :=
        FileTask.perform_bind_of_not_isFault (FileTask.perform_readOr missing _) calm
      obtain ⟨r, stored, rfl⟩ := h.stored_of_read read
      rw [next, stored, Record.ofText?_spread]
      rfl

/-! Listing. -/

/-- A listing of the pages of an archive, and of what else the path of the root leads through. -/
structure IsListing (site : Site) (archive : Archive) (documents : Dictionary (List String)) :
    Prop where
  ordered : documents.IsOrdered
  mem_documents : ∀ d, documents.contains d = true ↔ (∃ p, (archive d p).isSome = true) ∨
    archive.IsUsed ∧ isName d = true ∧ site.document d ∈ site.crossed
  mem_pages : ∀ d pages, documents.find? d = some pages → pages.Pairwise (· < ·) ∧
    ∀ p, p ∈ pages ↔ (archive d p).isSome = true ∨ isName p = true ∧ site.page d p ∈ site.crossed

/-- The pages whose files are at a place, in order. -/
def pagesAt (t : FileTree) (place : Place) : List String :=
  Dictionary.ordered ((t.entriesOf place).filterMap pageOf?)

def isDocument (entry : DirectoryEntry) : Bool := entry.isDirectory && isName entry.name

theorem perform_pagesOf {root : Path} {entries : List DirectoryEntry}
    {documents : Dictionary (List String)}
    (calm : isFault (perform now (pagesOf root documents entries) t).1 = false) :
    perform now (pagesOf root documents entries) t =
      (.ok (documents.override ((entries.filter isDocument).map fun entry =>
        (entry.name, pagesAt t (follow (t.start root) root.steps ++ [entry.name])))), t) := by
  induction entries generalizing documents with
  | nil => rfl
  | cons entry more ih =>
    cases document : isDocument entry with
    | false =>
      have skipped : pagesOf root documents (entry :: more) = pagesOf root documents more := by
        rw [pagesOf]
        exact if_neg (by simpa [isDocument] using document)
      rw [skipped] at calm ⊢
      rw [ih calm, List.filter_cons_of_neg (by simp [document])]
    | true =>
      have entered : pagesOf root documents (entry :: more) =
          FileTask.entries (root.join entry.name) >>= fun inside =>
            pagesOf root (Dictionary.insert entry.name
              (Dictionary.ordered (inside.filterMap pageOf?)) documents) more := by
        rw [pagesOf]
        exact if_pos (by simpa [isDocument] using document)
      rw [entered] at calm ⊢
      obtain ⟨inside, read, next⟩ :=
        FileTask.perform_bind_of_not_isFault (FileTask.perform_entries _) calm
      rw [next] at calm ⊢
      obtain ⟨q, found, -, rfl⟩ := FileTree.entries_eq_ok.mp read
      have place := FileTree.eq_follow_of_walk (FileTree.resolve_eq_ok.mp found).2
      rw [Path.steps_join, FileTree.follow_append] at place
      rw [ih calm, List.filter_cons_of_pos document, place]
      rfl

namespace Tracks

variable (h : Tracks s site archive t)

include h

theorem mem_entriesOf {place : Place} (below : site.root <+: place) {entry : DirectoryEntry} :
    entry ∈ t.entriesOf place ↔ ∃ n, site.Holds archive (place ++ [entry.name]) n ∧
      entry.isDirectory = decide (n = .directory) := by
  rw [FileTree.mem_entriesOf]
  refine exists_congr fun n => and_congr_left fun _ => ?_
  exact h.holds _ n (below.trans (List.prefix_append _ _))

/-- The entries of the root of a store; none where there is no root. -/
theorem perform_entriesIfThere
    (calm : isFault (perform now (FileTask.entriesIfThere s.root) t).1 = false) :
    ∃ found, perform now (FileTask.entriesIfThere s.root) t = (.ok found, t) ∧
      ∀ entry, entry ∈ found ↔ ∃ n, site.Holds archive (site.document entry.name) n ∧
        entry.isDirectory = decide (n = .directory) := by
  by_cases missing : t.entries s.root = .error .missing
  · refine ⟨[], FileTask.perform_entriesIfThere_of_missing missing, fun entry => ?_⟩
    refine iff_of_false List.not_mem_nil ?_
    rintro ⟨n, held, -⟩
    obtain ⟨found, there⟩ := h.rooted held.isUsed
    rw [FileTree.entries_eq_ok.mpr ⟨_, found, there, rfl⟩] at missing
    cases missing
  · have asked : perform now (FileTask.entriesIfThere s.root) t = _ :=
      FileTask.perform_entriesIfThere missing
    rw [asked] at calm ⊢
    cases read : t.entries s.root with
    | error fault =>
      rw [read] at calm
      cases calm
    | ok found =>
      obtain ⟨q, reached, -, rfl⟩ := FileTree.entries_eq_ok.mp read
      have place := FileTree.eq_follow_of_walk (FileTree.resolve_eq_ok.mp reached).2
      refine ⟨_, rfl, fun entry => ?_⟩
      obtain rfl : q = site.root := place.trans (congrArg Site.root h.site_eq)
      exact h.mem_entriesOf List.prefix_rfl

/-- The pages found in a directory of the root are those of the archive, and those that stand in the
way of the root. -/
theorem mem_pagesAt (used : archive.IsUsed) : p ∈ pagesAt t (site.document d) ↔
    (archive d p).isSome = true ∨ isName p = true ∧ site.page d p ∈ site.crossed := by
  have shape : site.document d ++ [pageFile p] = site.page d p := by simp [Site.document, Site.page]
  rw [pagesAt, Dictionary.mem_ordered, List.mem_filterMap]
  constructor
  · rintro ⟨entry, member, shown⟩
    obtain ⟨named, valid⟩ := pageOf?_eq_some.mp shown
    obtain ⟨n, held, -⟩ := (h.mem_entriesOf (site.below_document d)).mp member
    rw [named, shape] at held
    cases n with
    | directory =>
      rcases Site.holds_directory.mp held with ⟨-, passes⟩ | ⟨d', _, _, -, same⟩
      · exact Or.inr ⟨valid, passes⟩
      · exact absurd same.symm (site.document_ne_page d' d p)
    | file text =>
      obtain ⟨d', p', r, stored, same, -⟩ := Site.holds_file.mp held
      obtain ⟨rfl, rfl⟩ := site.page_injective same
      exact Or.inl (by rw [stored]; rfl)
  · intro listed
    have held : isName p = true ∧ ∃ n, site.Holds archive (site.page d p) n := by
      rcases listed with stored | ⟨valid, passes⟩
      · obtain ⟨r, stored⟩ := Option.isSome_iff_exists.mp stored
        exact ⟨(h.named d p r stored).2, _, .page stored⟩
      · exact ⟨valid, _, .crossed used passes⟩
    obtain ⟨valid, n, held⟩ := held
    refine ⟨⟨pageFile p, decide (n = .directory)⟩, ?_, pageOf?_eq_some.mpr ⟨rfl, valid⟩⟩
    exact (h.mem_entriesOf (site.below_document d)).mpr ⟨n, shape ▸ held, rfl⟩

theorem perform_list (calm : isFault (perform now s.list t).1 = false) :
    ∃ documents, perform now s.list t = (.ok documents, t) ∧ IsListing site archive documents := by
  obtain ⟨found, first, shown⟩ := h.perform_entriesIfThere (FileTask.isFault_of_bind calm)
  rw [list, FileTask.perform_bind_of_ok first] at calm ⊢
  have root : follow (t.start s.root) s.root.steps = site.root := congrArg Site.root h.site_eq
  refine ⟨_, perform_pagesOf calm, Dictionary.isOrdered_ofList _, fun d => ?_,
    fun d pages at_d => ?_⟩
  · change Dictionary.contains (Dictionary.ofList _) d = true ↔ _
    rw [Dictionary.contains_ofList, List.any_map, List.any_eq_true]
    simp only [List.mem_filter, Function.comp_apply, decide_eq_true_eq]
    constructor
    · rintro ⟨entry, ⟨inside, document⟩, rfl⟩
      obtain ⟨kind, valid⟩ := Bool.and_eq_true_iff.mp document
      obtain ⟨n, held, same⟩ := (shown entry).mp inside
      obtain rfl : n = .directory := by simpa [kind] using same
      rcases Site.holds_directory.mp held with ⟨used, passes⟩ | ⟨d', p, r, stored, same⟩
      · exact Or.inr ⟨used, valid, passes⟩
      · obtain rfl := site.document_injective same
        exact Or.inl ⟨p, by rw [stored]; rfl⟩
    · intro listed
      have held : isName d = true ∧ site.Holds archive (site.document d) .directory := by
        rcases listed with ⟨p, stored⟩ | ⟨used, valid, passes⟩
        · obtain ⟨r, stored⟩ := Option.isSome_iff_exists.mp stored
          exact ⟨(h.named d p r stored).1, .document stored⟩
        · exact ⟨valid, .crossed used passes⟩
      exact ⟨⟨d, true⟩, ⟨(shown _).mpr ⟨_, held.2, rfl⟩, held.1⟩, rfl⟩
  · have member := Dictionary.mem_ofList (Dictionary.mem_of_find?_eq_some at_d)
    obtain ⟨entry, inside, same⟩ := List.mem_map.mp member
    cases same
    obtain ⟨inside, -⟩ := List.mem_filter.mp inside
    obtain ⟨n, held, -⟩ := (shown entry).mp inside
    rw [root]
    exact ⟨Dictionary.pairwise_ordered _, fun p => h.mem_pagesAt held.isUsed⟩

end Tracks

end Dashboard.Store
