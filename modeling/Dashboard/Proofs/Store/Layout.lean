import Mathlib.Tactic.SplitIfs
import Dashboard.Proofs.Dictionary
import Dashboard.Proofs.Files.Task
import Dashboard.Proofs.Store.Records

/-!
How the pages of a store lie in a tree of files. Below the place of its root there are the
directories of the documents with the files of their pages, and the directories that the path of the
root itself goes down to, as `a/b/..` goes down to `a/b`. Putting one more page keeps it so.
-/
namespace Dashboard.Store

open FileTree (follow passed)

/-! Names. -/

theorem ne_empty_of_isName {name : String} (h : isName name = true) : name ≠ "" := by
  rintro rfl
  cases h

theorem slash_not_mem_of_isName {name : String} (h : isName name = true) : '/' ∉ name.toList := by
  intro slash
  have valid := List.all_eq_true.mp (Bool.and_eq_true_iff.mp h).2 '/' slash
  cases valid

theorem pageFile_injective {page other : String} (h : pageFile page = pageFile other) :
    page = other := by
  have same := congrArg String.toList h
  rw [pageFile, pageFile, String.toList_append, String.toList_append] at same
  exact String.toList_injective (List.append_cancel_right same)

/-- A page is written to a file that is no page's. -/
theorem pageFile_ne_staging (page other : String) : pageFile page ≠ pageFile other ++ ".tmp" := by
  intro h
  have last := congrArg (fun text => text.toList.getLast?) h
  simp [pageFile] at last

/-- The extension of a page's file gives way, and nothing else of its name. -/
theorem staging_eq {page : String} (h : isName page = true) :
    Path.withExtension (pageFile page) "json.tmp" = pageFile page ++ ".tmp" := by
  have shape : pageFile page = page ++ "." ++ "json" := by
    rw [pageFile, String.append_assoc]
    rfl
  have stem : Path.stem (pageFile page) = page := by
    rw [shape, Path.stem_append (ne_empty_of_isName h) (by decide)]
  rw [Path.withExtension, stem, shape, String.append_assoc, String.append_assoc, String.append_assoc]
  rfl

theorem pageOf?_eq_some {entry : DirectoryEntry} {page : String} :
    pageOf? entry = some page ↔ entry.name = pageFile page ∧ isName page = true := by
  have cut (front : List Char) :
      (front ++ ".json".toList).take ((front ++ ".json".toList).length - 5) = front := by simp
  rw [pageOf?]
  constructor
  · intro h
    split_ifs at h with found
    obtain ⟨ends, valid⟩ := Bool.and_eq_true_iff.mp found
    obtain ⟨front, whole⟩ := List.isSuffixOf_iff_suffix.mp ends
    rw [← whole, cut] at h valid
    cases h
    refine ⟨String.toList_injective ?_, valid⟩
    rw [pageFile, String.toList_append, String.toList_ofList, whole]
  · rintro ⟨named, valid⟩
    have whole : entry.name.toList = page.toList ++ ".json".toList := by
      rw [named, pageFile, String.toList_append]
    have ends : ".json".toList.isSuffixOf entry.name.toList = true :=
      List.isSuffixOf_iff_suffix.mpr ⟨page.toList, whole.symm⟩
    rw [ends, whole, cut, String.ofList_toList, valid]
    rfl

/-- Where the page of a document is written. -/
def paths (s : Store) (document page : String) : PagePaths :=
  ⟨s.root.join document, (s.root.join document).join (pageFile page),
    (s.root.join document).join (pageFile page ++ ".tmp")⟩

/-! The map of the pages. -/

/-- The pages of a store, by the names of their documents and their own. -/
abbrev Archive := String → String → Option Record

namespace Archive

def empty : Archive := fun _ _ => none

def put (archive : Archive) (document page : String) (record : Record) : Archive := fun d p =>
  if d = document ∧ p = page then some record else archive d p

/-- Some page is there. -/
def IsUsed (archive : Archive) : Prop := ∃ document page record, archive document page = some record

variable {archive : Archive} {document page d p : String} {record : Record}

@[simp] theorem put_self : archive.put document page record document page = some record :=
  if_pos ⟨rfl, rfl⟩

theorem put_of_ne (other : ¬(d = document ∧ p = page)) :
    archive.put document page record d p = archive d p := if_neg other

theorem isUsed_put : (archive.put document page record).IsUsed :=
  ⟨document, page, record, put_self⟩

theorem not_isUsed_empty : ¬empty.IsUsed := by
  rintro ⟨_, _, _, ⟨⟩⟩

end Archive

/-! The places of a store. -/

/-- The place of a root, and the places that the path there goes down to. -/
structure Site where
  root : Place
  crossed : List Place

def site (s : Store) (t : FileTree) : Site :=
  ⟨follow (t.start s.root) s.root.steps, passed (t.start s.root) s.root.steps⟩

theorem site_congr {s : Store} {t t' : FileTree} (home : t'.home = t.home) :
    s.site t' = s.site t := by
  rw [site, site, FileTree.start_congr home]

namespace Site

variable (site : Site) {archive : Archive} {q : Place} {n : FileNode} {text : String}

def document (document : String) : Place := site.root ++ [document]

def page (document page : String) : Place := site.root ++ [document, pageFile page]

def staging (document page : String) : Place := site.root ++ [document, pageFile page ++ ".tmp"]

theorem below_document (d : String) : site.root <+: site.document d := List.prefix_append _ _

theorem below_page (d p : String) : site.root <+: site.page d p := List.prefix_append _ _

theorem document_injective {d d' : String} (h : site.document d = site.document d') : d = d' := by
  simpa [document] using h

theorem page_injective {d p d' p' : String} (h : site.page d p = site.page d' p') :
    d = d' ∧ p = p' := by
  obtain ⟨first, second⟩ : d = d' ∧ pageFile p = pageFile p' := by simpa [page] using h
  exact ⟨first, pageFile_injective second⟩

theorem document_ne_page (d d' p : String) : site.document d ≠ site.page d' p := by
  simp [document, page]

theorem document_ne_staging (d d' p : String) : site.document d ≠ site.staging d' p := by
  simp [document, staging]

theorem page_ne_staging (d p d' p' : String) : site.page d p ≠ site.staging d' p' := by
  intro h
  have second : pageFile p = pageFile p' ++ ".tmp" := by
    simp only [page, staging, List.append_cancel_left_eq, List.cons.injEq, and_true] at h
    exact h.2
  exact pageFile_ne_staging p p' second

/-- What is where below the root of a store that holds the pages of an archive. -/
inductive Holds (archive : Archive) : Place → FileNode → Prop
  | crossed {place} (used : archive.IsUsed) (passes : place ∈ site.crossed) :
    Holds archive place .directory
  | document {document page record} (stored : archive document page = some record) :
    Holds archive (site.document document) .directory
  | page {document page record} (stored : archive document page = some record) :
    Holds archive (site.page document page) (.file record.toJson.spread)

variable {site}

theorem holds_directory : site.Holds archive q .directory ↔
    archive.IsUsed ∧ q ∈ site.crossed ∨
      ∃ d p r, archive d p = some r ∧ q = site.document d := by
  constructor
  · rintro (⟨used, passes⟩ | stored)
    · exact Or.inl ⟨used, passes⟩
    · exact Or.inr ⟨_, _, _, stored, rfl⟩
  · rintro (⟨used, passes⟩ | ⟨d, p, r, stored, rfl⟩)
    · exact .crossed used passes
    · exact .document stored

theorem holds_file : site.Holds archive q (.file text) ↔
    ∃ d p r, archive d p = some r ∧ q = site.page d p ∧ text = r.toJson.spread := by
  constructor
  · intro held
    cases held with
    | page stored => exact ⟨_, _, _, stored, rfl, rfl⟩
  · rintro ⟨d, p, r, stored, rfl, rfl⟩
    exact .page stored

/-- What is held shows that something is. -/
theorem Holds.isUsed (h : site.Holds archive q n) : archive.IsUsed := by
  cases h with
  | crossed used => exact used
  | document stored | page stored => exact ⟨_, _, _, stored⟩

theorem not_holds_staging {d p : String} (apart : site.staging d p ∉ site.crossed) :
    ¬site.Holds archive (site.staging d p) n := by
  intro held
  cases n with
  | directory =>
    rcases holds_directory.mp held with ⟨-, passes⟩ | ⟨d', _, _, -, same⟩
    · exact apart passes
    · exact site.document_ne_staging d' d p same.symm
  | file text =>
    obtain ⟨d', p', _, -, same, -⟩ := holds_file.mp held
    exact site.page_ne_staging d' p' d p same.symm

theorem holds_put_page {d p : String} {r : Record} (apart : site.page d p ∉ site.crossed) :
    site.Holds (archive.put d p r) (site.page d p) n ↔ n = .file r.toJson.spread := by
  constructor
  · intro held
    cases n with
    | directory =>
      rcases holds_directory.mp held with ⟨-, passes⟩ | ⟨d', _, _, -, same⟩
      · exact absurd passes apart
      · exact absurd same.symm (site.document_ne_page d' d p)
    | file text =>
      obtain ⟨d', p', r', stored, same, rfl⟩ := holds_file.mp held
      obtain ⟨rfl, rfl⟩ := site.page_injective same
      rw [Archive.put_self] at stored
      cases stored
      rfl
  · rintro rfl
    exact .page Archive.put_self

theorem Holds.put {d p : String} {r : Record} (held : site.Holds archive q n)
    (other : q ≠ site.page d p) : site.Holds (archive.put d p r) q n := by
  cases held with
  | crossed _ passes => exact .crossed Archive.isUsed_put passes
  | @document d' p' r' stored =>
    by_cases same : d' = d
    · subst same
      exact .document Archive.put_self
    · exact .document ((Archive.put_of_ne fun both => same both.1).trans stored)
  | page stored =>
    refine .page ((Archive.put_of_ne ?_).trans stored)
    rintro ⟨rfl, rfl⟩
    exact other rfl

/-- Away from its file, one more page adds the directories that lead there. -/
theorem holds_put_of_ne {d p : String} {r : Record} (other : q ≠ site.page d p) :
    site.Holds (archive.put d p r) q n ↔
      site.Holds archive q n ∨ n = .directory ∧ q ∈ site.crossed ++ [site.document d] := by
  constructor
  · intro held
    cases held with
    | crossed _ passes => exact Or.inr ⟨rfl, List.mem_append_left _ passes⟩
    | @document d' p' r' stored =>
      by_cases same : d' = d ∧ p' = p
      · obtain ⟨rfl, rfl⟩ := same
        exact Or.inr ⟨rfl, List.mem_append_right _ List.mem_cons_self⟩
      · exact Or.inl (.document ((Archive.put_of_ne same).symm.trans stored))
    | @page d' p' r' stored =>
      refine Or.inl (.page ((Archive.put_of_ne ?_).symm.trans stored))
      rintro ⟨rfl, rfl⟩
      exact other rfl
  · rintro (held | ⟨rfl, member⟩)
    · exact held.put other
    · rcases List.mem_append.mp member with passes | last
      · exact .crossed Archive.isUsed_put passes
      · obtain rfl := List.mem_singleton.mp last
        exact .document Archive.put_self

end Site

/-! The tree below a store. -/

variable {s : Store} {site : Site} {archive : Archive} {t t' : FileTree} {q : Place} {n : FileNode}
  {d p text : String} {r : Record}

/-- Below the root of the store there is what the archive says, and nothing else. -/
structure Tracks (s : Store) (site : Site) (archive : Archive) (t : FileTree) : Prop where
  site_eq : s.site t = site
  inside : site.root ≠ []
  holds : ∀ q n, site.root <+: q → ((q, n) ∈ t.nodes ↔ site.Holds archive q n)
  named : ∀ d p r, archive d p = some r → isName d = true ∧ isName p = true
  apart : ∀ d p r, archive d p = some r → site.page d p ∉ site.crossed
  rooted : archive.IsUsed → t.resolve s.root = .ok site.root ∧ t.node? site.root = some .directory

namespace Tracks

variable (h : Tracks s site archive t)

include h

theorem not_holds_directory_page (stored : archive d p = some r) :
    ¬site.Holds archive (site.page d p) .directory := by
  intro held
  rcases Site.holds_directory.mp held with ⟨-, passes⟩ | ⟨d', _, _, -, same⟩
  · exact h.apart d p r stored passes
  · exact site.document_ne_page d' d p same.symm

theorem holds_unique {n' : FileNode} (held : site.Holds archive q n)
    (other : site.Holds archive q n') : n = n' := by
  cases held with
  | crossed used passes =>
    cases n' with
    | directory => rfl
    | file =>
      obtain ⟨d, p, r, stored, rfl, -⟩ := Site.holds_file.mp other
      exact absurd (.crossed used passes) (h.not_holds_directory_page stored)
  | document =>
    cases n' with
    | directory => rfl
    | file =>
      obtain ⟨d', p', _, -, same, -⟩ := Site.holds_file.mp other
      exact absurd same (site.document_ne_page _ d' p')
  | page stored =>
    cases n' with
    | directory => exact absurd other (h.not_holds_directory_page stored)
    | file =>
      obtain ⟨d', p', r', stored', same, rfl⟩ := Site.holds_file.mp other
      obtain ⟨rfl, rfl⟩ := site.page_injective same
      rw [stored] at stored'
      cases stored'
      rfl

theorem node?_eq_some_iff (below : site.root <+: q) :
    t.node? q = some n ↔ site.Holds archive q n := by
  have notRoot : q ≠ [] := by
    rintro rfl
    exact h.inside (List.prefix_nil.mp below)
  rw [← h.holds q n below]
  refine FileTree.node?_eq_some_iff notRoot fun n n' member other => ?_
  exact h.holds_unique ((h.holds q n below).mp member) ((h.holds q n' below).mp other)

end Tracks

/-- A tree with one more page, and the directories that lead there. -/
structure Puts (s : Store) (document page text : String) (t t' : FileTree) : Prop where
  home : t'.home = t.home
  mem : ∀ q n, (q, n) ∈ t'.nodes ↔ q = (s.site t).page document page ∧ n = .file text ∨
    q ≠ (s.site t).page document page ∧ q ≠ (s.site t).staging document page ∧
      ((q, n) ∈ t.nodes ∨ n = .directory ∧
        q ∈ (s.site t).crossed ++ [(s.site t).document document] ∧ t.node? q = none)
  page_eq : t'.node? ((s.site t).page document page) = some (.file text)
  staging_eq : t'.node? ((s.site t).staging document page) = none
  kept : ∀ q n, q ≠ (s.site t).page document page → q ≠ (s.site t).staging document page →
    t.node? q = some n → t'.node? q = some n
  fresh : ∀ q n, q ≠ (s.site t).page document page → q ≠ (s.site t).staging document page →
    t'.node? q = some n → t.node? q = some n ∨
      n = .directory ∧ q ∈ (s.site t).crossed ++ [(s.site t).document document]
  page_apart : (s.site t).page document page ∉ (s.site t).crossed
  staging_apart : (s.site t).staging document page ∉ (s.site t).crossed
  rooted : s.root.text ≠ "" → t'.resolve s.root = .ok (s.site t).root
  root_eq : t'.node? (s.site t).root = some .directory

/-- A path to a file of a document can be walked only where the root is a directory. -/
theorem resolve_below {name : String} (h : t.resolve ((s.root.join d).join name) = .ok q) :
    q = (s.site t).root ++ [d, name] ∧
      t.walk (t.start s.root) s.root.steps = .ok (s.site t).root ∧
      t.node? (s.site t).root = some .directory := by
  obtain ⟨-, walked⟩ := FileTree.resolve_eq_ok.mp h
  rw [Path.steps_join, Path.steps_join, List.append_assoc] at walked
  have last := FileTree.eq_follow_of_walk walked
  rw [FileTree.follow_append] at last
  rw [FileTree.walk_append, bind_eq_ok] at walked
  obtain ⟨root, walked, later⟩ := walked
  obtain rfl : root = (s.site t).root := FileTree.eq_follow_of_walk walked
  refine ⟨last.trans ?_, walked, (FileTree.walk_cons_eq_ok later).1⟩
  simp [follow, site]

/-- What saving a page comes to. Its directories are made, its text is written beside its file, and
this takes the place of the file. -/
structure Saves (s : Store) (document page text : String) (t made t' : FileTree) : Prop where
  adds : FileTree.Adds t made ((s.site t).crossed ++ [(s.site t).document document])
  checked : FileTree.checkPath (s.root.join document) = .ok ()
  walked : made.walk (t.start s.root) s.root.steps = .ok (s.site t).root
  rootThere : made.node? (s.site t).root = some .directory
  pageFree : made.node? ((s.site t).page document page) ≠ some .directory
  stagingFree : made.node? ((s.site t).staging document page) ≠ some .directory
  result : t' = ((made.set ((s.site t).staging document page) (.file text)).erase
    ((s.site t).staging document page)).set ((s.site t).page document page) (.file text)

theorem saves_of_moved {made wrote : FileTree} (named : d ≠ "")
    (make : t.makeDirectories (s.paths d p).directory = (made, .ok ()))
    (write : made.write (s.paths d p).staging text = (wrote, .ok ()))
    (move : wrote.move (s.paths d p).staging (s.paths d p).file = (t', .ok ())) :
    Saves s d p text t made t' := by
  obtain ⟨staging, free, rfl⟩ := FileTree.write_eq_ok write
  obtain ⟨found, stagingFree⟩ := FileTree.target_join_eq_ok.mp free
  have checked := FileTree.checkPath_of_join (FileTree.resolve_eq_ok.mp found).1
    (Path.text_join_ne_empty named)
  have adds := FileTree.adds_of_makeDirectories checked make
  have site_eq : s.site made = s.site t := site_congr adds.home
  have wrote_site : s.site (made.set staging (.file text)) = s.site t :=
    (site_congr FileTree.home_set).trans site_eq
  -- Each path leads to the place of the store that it names.
  obtain ⟨stagingPlace, walked, rootThere⟩ := resolve_below found
  obtain ⟨source, read, page, moved, readBack, free', rfl⟩ := FileTree.move_eq_ok move
  obtain ⟨found', pageFree⟩ := FileTree.target_join_eq_ok.mp free'
  obtain ⟨sourcePlace, -, -⟩ := resolve_below moved
  obtain ⟨pagePlace, -, -⟩ := resolve_below found'
  obtain ⟨origin, readFrom, there⟩ := FileTree.read_eq_ok.mp readBack
  obtain ⟨originPlace, -, -⟩ := resolve_below readFrom
  rw [site_eq] at stagingPlace walked rootThere
  rw [wrote_site] at sourcePlace pagePlace originPlace
  change page = (s.site t).page d p at pagePlace
  change staging = (s.site t).staging d p at stagingPlace
  obtain rfl : staging = source := stagingPlace.trans sourcePlace.symm
  obtain rfl : staging = origin := stagingPlace.trans originPlace.symm
  subst pagePlace stagingPlace
  -- What is moved is what was written.
  rw [FileTree.node?_set_self (by simp [Site.staging]), Option.some.injEq, FileNode.file.injEq]
    at there
  subst there
  rw [FileTree.node?_set_of_ne ((s.site t).page_ne_staging d p d p)] at pageFree
  have crossed : follow (t.start s.root) s.root.steps = (s.site t).root := rfl
  rw [FileTree.start_join, Path.steps_join, FileTree.passed_append, crossed] at adds
  change FileTree.Adds t made ((s.site t).crossed ++ [(s.site t).document d]) at adds
  rw [FileTree.start_congr adds.home] at walked
  exact ⟨adds, checked, walked, rootThere, pageFree, stagingFree, rfl⟩

namespace Saves

variable {made : FileTree} (saves : Saves s d p text t made t')

include saves

/-- Away from the two files the tree stays as it is. -/
theorem node?_eq (notPage : q ≠ (s.site t).page d p) (notStaging : q ≠ (s.site t).staging d p) :
    t'.node? q = made.node? q := by
  rw [saves.result, FileTree.node?_set_of_ne notPage, FileTree.node?_erase_of_ne notStaging,
    FileTree.node?_set_of_ne notStaging]

/-- Neither file stands in the place of a directory. -/
theorem node?_of_directory (there : made.node? q = some .directory) :
    t'.node? q = some .directory := by
  rw [saves.node?_eq (fun same => saves.pageFree (same ▸ there))
    (fun same => saves.stagingFree (same ▸ there)), there]

theorem crossed_there (member : q ∈ (s.site t).crossed) : made.node? q = some .directory :=
  saves.adds.there q (List.mem_append_left _ member)

theorem puts : Puts s d p text t t' where
  home := by rw [saves.result]; exact saves.adds.home
  mem q n := by
    rw [saves.result, FileTree.mem_nodes_set, FileTree.mem_nodes_erase, FileTree.mem_nodes_set,
      saves.adds.mem]
    refine or_congr_right (and_congr_right fun _ => and_congr_right fun notStaging => ?_)
    simp [notStaging]
  page_eq := by
    rw [saves.result]
    exact FileTree.node?_set_self (by simp [Site.page])
  staging_eq := by
    rw [saves.result, FileTree.node?_set_of_ne ((s.site t).page_ne_staging d p d p).symm,
      FileTree.node?_erase_self (by simp [Site.staging])]
  kept q n notPage notStaging found := by
    rw [saves.node?_eq notPage notStaging, saves.adds.kept q n found]
  fresh q n notPage notStaging found := by
    rw [saves.node?_eq notPage notStaging] at found
    exact saves.adds.fresh q n found
  page_apart member := saves.pageFree (saves.crossed_there member)
  staging_apart member := saves.stagingFree (saves.crossed_there member)
  rooted notEmpty := by
    have same : t'.start s.root = t.start s.root := by
      rw [saves.result]
      exact FileTree.start_congr saves.adds.home
    refine FileTree.resolve_eq_ok.mpr
      ⟨FileTree.checkPath_of_join saves.checked notEmpty, ?_⟩
    rw [same]
    exact FileTree.walk_of_directories (fun _ => saves.node?_of_directory) saves.walked
  root_eq := saves.node?_of_directory saves.rootThere

end Saves

/-- With an empty path the root is where the walk begins, and that would have to be there already. -/
theorem text_ne_empty_of_puts (given : s.root.below = []) (puts : Puts s d p text t t')
    (absent : t.node? (s.site t).root = none) : s.root.text ≠ "" := by
  intro empty
  have base : s.root.base = "" := by
    rw [Path.text, given] at empty
    exact empty
  have steps : s.root.steps = [.stay] := by
    rw [Path.steps, given, base]
    rfl
  have crossed : (s.site t).crossed = [] := by
    rw [site, steps]
    rfl
  have notPage : (s.site t).root ≠ (s.site t).page d p := by simp [Site.page]
  have notStaging : (s.site t).root ≠ (s.site t).staging d p := by simp [Site.staging]
  rcases puts.fresh _ _ notPage notStaging puts.root_eq with there | ⟨-, member⟩
  · rw [absent] at there
    cases there
  · rw [crossed, List.nil_append, List.mem_singleton] at member
    simp [Site.document] at member

namespace Tracks

variable (h : Tracks s site archive t)

include h

/-- The path of the root is not empty once a page has been put. -/
theorem text_ne_empty (given : s.root.below = []) (puts : Puts s d p text t t') :
    s.root.text ≠ "" := by
  by_cases used : archive.IsUsed
  · exact (FileTree.checkPath_eq_ok.mp (FileTree.resolve_eq_ok.mp (h.rooted used).1).1).2.1
  · refine text_ne_empty_of_puts given puts ?_
    rw [h.site_eq]
    cases found : t.node? site.root with
    | none => rfl
    | some n => exact absurd ((h.node?_eq_some_iff List.prefix_rfl).mp found).isUsed used

/-- A directory that leads to a page takes no page's place. -/
theorem holds_or_absent (below : site.root <+: q)
    (leads : q ∈ site.crossed ++ [site.document d]) :
    site.Holds archive q .directory ∨ t.node? q = none := by
  cases found : t.node? q with
  | none => exact Or.inr rfl
  | some n =>
    have held := (h.node?_eq_some_iff below).mp found
    cases n with
    | directory => exact Or.inl held
    | file text =>
      obtain ⟨d', p', r', stored, rfl, -⟩ := Site.holds_file.mp held
      rcases List.mem_append.mp leads with passes | last
      · exact absurd passes (h.apart d' p' r' stored)
      · exact absurd (List.mem_singleton.mp last).symm (site.document_ne_page d d' p')

/-- Putting a page into the tree puts it into the archive. -/
theorem put (given : s.root.below = []) (validDocument : isName d = true)
    (validPage : isName p = true) (puts : Puts s d p r.toJson.spread t t') :
    Tracks s site (archive.put d p r) t' := by
  have notEmpty := h.text_ne_empty given puts
  obtain ⟨home, mem, -, -, -, -, pageApart, stagingApart, rooted, rootThere⟩ := puts
  have site_eq : s.site t' = s.site t := site_congr home
  rw [h.site_eq] at mem pageApart stagingApart rooted rootThere site_eq
  refine ⟨site_eq, h.inside, fun q n below => ?_, fun d' p' r' stored => ?_,
    fun d' p' r' stored => ?_, fun _ => ⟨rooted notEmpty, rootThere⟩⟩
  · rw [mem]
    -- The page is there and its staging file is gone; elsewhere only directories are new.
    by_cases onPage : q = site.page d p
    · subst onPage
      simp [Site.holds_put_page pageApart]
    by_cases onStaging : q = site.staging d p
    · subst onStaging
      simp [Site.not_holds_staging stagingApart, onPage]
    rw [Site.holds_put_of_ne onPage, h.holds q n below]
    simp only [onPage, onStaging, false_and, false_or, ne_eq, not_false_eq_true, true_and]
    refine ⟨Or.imp_right fun ⟨kind, leads, _⟩ => ⟨kind, leads⟩, ?_⟩
    rintro (held | ⟨rfl, leads⟩)
    · exact Or.inl held
    · exact (h.holds_or_absent below leads).imp_right fun absent => ⟨rfl, leads, absent⟩
  · by_cases same : d' = d ∧ p' = p
    · obtain ⟨rfl, rfl⟩ := same
      exact ⟨validDocument, validPage⟩
    · exact h.named d' p' r' ((Archive.put_of_ne same).symm.trans stored)
  · by_cases same : d' = d ∧ p' = p
    · obtain ⟨rfl, rfl⟩ := same
      exact pageApart
    · exact h.apart d' p' r' ((Archive.put_of_ne same).symm.trans stored)

end Tracks

end Dashboard.Store
