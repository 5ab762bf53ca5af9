import Dashboard.Proofs.DataSource.Freshness
import Dashboard.Proofs.Text

/-!
Requests under different names do not meet. A key joins the name of a document to that of a source by
a colon, so documents are kept apart as long as their names have none, and so are sources outside all
documents: a request is answered from a fetch for its own source and document, and invalidating a
document removes what was fetched for it and nothing else.
-/
namespace Dashboard.DataSource

/-- Names that make a key of their own: a document, or else a source, that has no colon. -/
def IsSeparate (source : String) : Option String → Prop
  | some document => ':' ∉ document.toList
  | none => ':' ∉ source.toList

theorem toList_cacheKey (source document : String) :
    (cacheKey source (some document)).toList = document.toList ++ ':' :: source.toList := by
  simp [cacheKey]

/-- Separate names have separate keys. -/
theorem eq_of_cacheKey_eq {source other : String} {document document' : Option String}
    (separate : IsSeparate source document) (separate' : IsSeparate other document')
    (same : cacheKey source document = cacheKey other document') :
    source = other ∧ document = document' := by
  cases document with
  | none =>
    cases document' with
    | none => exact ⟨same, rfl⟩
    | some document' =>
      have colon : ':' ∈ source.toList := by
        rw [show source = _ from same, toList_cacheKey]
        simp
      exact absurd colon separate
  | some document =>
    cases document' with
    | none =>
      have colon : ':' ∈ other.toList := by
        rw [show other = _ from same.symm, toList_cacheKey]
        simp
      exact absurd colon separate'
    | some document' =>
      have joined := congrArg String.toList same
      rw [toList_cacheKey, toList_cacheKey] at joined
      obtain ⟨documents, sources⟩ := Text.eq_of_append_mark separate separate' joined
      exact ⟨String.toList_inj.mp sources, congrArg some (String.toList_inj.mp documents)⟩

/-- A key belongs to its own document only. -/
theorem covers_cacheKey {source d : String} {document : Option String} (plain : ':' ∉ d.toList)
    (separate : IsSeparate source document) :
    covers (some d) (cacheKey source document) = true ↔ document = some d := by
  rw [covers, List.isPrefixOf_iff_prefix]
  constructor
  · rintro ⟨rest, begins⟩
    cases document with
    | none =>
      have colon : ':' ∈ source.toList := by
        rw [show source.toList = _ from begins.symm]
        simp
      exact absurd colon separate
    | some document =>
      rw [toList_cacheKey] at begins
      obtain ⟨same, -⟩ := @Text.eq_of_append_mark ':' d.toList document.toList rest source.toList plain
        separate (by simpa using begins)
      exact congrArg some (String.toList_inj.mp same.symm)
  · rintro rfl
    exact ⟨source.toList, by simp [toList_cacheKey]⟩

namespace Cache

variable {backend : Backend} {statics : Dictionary Rows} {c : Cache} {key : String} {id : Nat}

/-- What the fetches were begun for, in order. -/
def origins (c : Cache) : List (String × Option String) :=
  c.fetches.map fun f => (f.source, f.document)

theorem origins_move (backend : Backend) (c : Cache) (id : Nat) :
    (c.move backend id).origins = c.origins := by
  unfold move
  split
  · rfl
  · next fetch found =>
    obtain ⟨calls, stage, moved, -⟩ := moveStage_eq backend c fetch
    obtain ⟨inside, rfl⟩ := List.getElem?_eq_some_iff.mp found
    rw [moved]
    simp only [origins, List.map_set]
    refine List.ext_getElem (by simp) fun n _ _ => ?_
    rw [List.getElem_set]
    split_ifs with here
    · simp [here]
    · rfl

theorem origins_keep (c : Cache) (request : Request) (rows : Rows) :
    (c.keep request rows).origins = c.origins := by
  unfold keep
  split_ifs <;> rfl

/-- Fetches are begun for what requests ask for. -/
theorem mem_origins_act {action : Action} {origin : String × Option String}
    (member : origin ∈ (act backend statics c action).1.origins) :
    origin ∈ c.origins ∨ action = .get origin.1 origin.2 := by
  cases action with
  | get source document =>
    have step := happens_act backend statics c (.get source document)
    generalize (act backend statics c (.get source document)).1 = d,
      (act backend statics c (.get source document)).2 = answered at step member
    cases step with
    | given | hit | joined => exact Or.inl member
    | begun =>
      rw [origins, List.map_append, List.mem_append, List.map_singleton] at member
      exact member.imp_right fun last => by rw [List.mem_singleton.mp last]
    | aged _ other => exact absurd rfl (other source document)
  | move id => exact Or.inl (origins_move backend c id ▸ member)
  | take request =>
    simp only [act, take] at member
    split_ifs at member
    · split at member
      · next rows _ => exact Or.inl (origins_keep c request rows ▸ member)
      · exact Or.inl member
    · exact Or.inl member
  | settle | drop | invalidate => exact Or.inl member

theorem asked_of_mem_origins {actions : List Action} {origin : String × Option String}
    (member : origin ∈ (run backend statics {} actions).1.origins) :
    .get origin.1 origin.2 ∈ actions := by
  induction actions using List.reverseRecOn with
  | nil => cases member
  | append_singleton earlier last ih =>
    rw [run_append_fst] at member
    rcases mem_origins_act member with before | rfl
    · exact List.mem_append_left _ (ih before)
    · exact List.mem_append_right _ (List.mem_singleton_self _)

theorem rowsOf?_eq_some {rows : Rows} : c.rowsOf? id = some rows ↔
    ∃ f, c.fetches[id]? = some f ∧ f.stage = .finished rows := by
  rw [rowsOf?]
  cases found : c.fetches[id]? with
  | none => simp
  | some f => cases shape : f.stage <;> simp [shape]

/-- The requests among these actions have separate names. -/
def AreSeparate (actions : List Action) : Prop :=
  ∀ source document, Action.get source document ∈ actions → IsSeparate source document

/-- A fetch for a separate key is one for that source and that document. -/
theorem exists_fetch {actions : List Action} (separate : AreSeparate actions)
    (known : (run backend statics {} actions).1.keyOf? id = some key) : ∃ f,
    (run backend statics {} actions).1.fetches[id]? = some f ∧ f.key = key ∧
      IsSeparate f.source f.document ∧ .get f.source f.document ∈ actions := by
  obtain ⟨f, found, named⟩ := Option.map_eq_some_iff.mp known
  have asked : Action.get f.source f.document ∈ actions :=
    asked_of_mem_origins (List.mem_map_of_mem (f := fun f : Fetch => (f.source, f.document))
      (List.mem_of_getElem? found))
  exact ⟨f, found, named, separate _ _ asked, asked⟩

/-- Invalidating a document hits the keys of the fetches for it. -/
theorem covers_iff {actions : List Action} (separate : AreSeparate actions) {d : String}
    (plain : ':' ∉ d.toList)
    (known : (run backend statics {} actions).1.keyOf? id = some key) :
    covers (some d) key = false ↔
      ∃ f, (run backend statics {} actions).1.fetches[id]? = some f ∧ f.document ≠ some d := by
  obtain ⟨f, found, rfl, apart, -⟩ := exists_fetch separate known
  rw [← Bool.not_eq_true, Fetch.key, covers_cacheKey plain apart, found]
  simp

/-- In every run whose requests have separate names, a request of no static source is answered with the
rows of a fetch for its own source and document, and invalidating a document leaves exactly what was
fetched for others, or outside all documents. -/
theorem requests_are_isolated (backend : Backend) (statics : Dictionary Rows) (actions : List Action)
    (separate : AreSeparate actions) :
    let whole := run backend statics {} actions
    (∀ front source document rest rows, actions = front ++ .get source document :: rest →
      Dictionary.find? statics source = none →
        ((run backend statics {} front).1.requests, rows) ∈ whole.2 →
          ∃ id, Gets backend statics front source document rest id ∧
            whole.1.fetches[id]? = some ⟨source, document, .finished rows⟩) ∧
    ∀ d : String, ':' ∉ d.toList →
      (∀ key id, Dictionary.find? (whole.1.invalidate (some d)).pending key = some id ↔
        Dictionary.find? whole.1.pending key = some id ∧
          ∃ f, whole.1.fetches[id]? = some f ∧ f.document ≠ some d) ∧
      ∀ key rows, Dictionary.find? (whole.1.invalidate (some d)).cached key = some rows ↔
        Dictionary.find? whole.1.cached key = some rows ∧
          ∃ id f, Supplies backend statics actions key id ∧
            whole.1.fetches[id]? = some f ∧ f.document ≠ some d := by
  intro whole
  refine ⟨?_, fun d plain => ⟨fun key id => ?_, fun key rows => ?_⟩⟩
  · rintro front source document rest rows rfl dynamic member
    obtain ⟨id, gets, fresh, fetched⟩ := exists_gets dynamic member
    obtain ⟨f, found, named, apart, -⟩ := exists_fetch separate fresh.known
    obtain ⟨rfl, rfl⟩ := eq_of_cacheKey_eq apart (separate _ _ (by simp)) named
    obtain ⟨_, again, finished⟩ := rowsOf?_eq_some.mp fetched
    obtain rfl := Option.some.inj (found.symm.trans again)
    exact ⟨id, gets, found.trans (congrArg some (by rw [← finished]))⟩
  · rw [find?_pending_invalidate]
    have known (held : Dictionary.find? whole.1.pending key = some id) : whole.1.keyOf? id = some key :=
      (isSound_empty.run actions).owned _ (Dictionary.mem_of_find?_eq_some held)
    constructor
    · intro held
      split_ifs at held with covered
      exact ⟨held, (covers_iff separate plain (known held)).mp (Bool.not_eq_true _ ▸ covered)⟩
    · rintro ⟨held, other⟩
      rw [(covers_iff separate plain (known held)).mpr other]
      exact held
  · rw [find?_cached_invalidate]
    constructor
    · intro held
      split_ifs at held with covered
      obtain ⟨id, supplies, -⟩ := exists_supplies held
      obtain ⟨f, found, other⟩ :=
        (covers_iff separate plain supplies.isFresh.known).mp (Bool.not_eq_true _ ▸ covered)
      exact ⟨held, id, f, supplies, found, other⟩
    · rintro ⟨held, id, f, supplies, found, other⟩
      rw [(covers_iff separate plain supplies.isFresh.known).mpr ⟨f, found, other⟩]
      exact held

/-- A request under a document, then one outside all documents; their keys differ. -/
def apart : List Action :=
  [.get "sales" (some "north"), .move 0, .move 0, .get "sales" none, .move 1,
    .take ⟨1, "sales", 1⟩, .take ⟨0, "north:sales", 0⟩]

theorem requests_are_isolated_apart :
    (∃ rows id, (0, rows) ∈ (run emptyBackend [] {} apart).2 ∧
      Gets emptyBackend [] [] "sales" (some "north") apart.tail id ∧
        (run emptyBackend [] {} apart).1.fetches[id]? =
          some ⟨"sales", some "north", .finished rows⟩) ∧
    (∀ rows, Dictionary.find? ((run emptyBackend [] {} apart).1.invalidate (some "north")).cached
      "sales" = some rows ↔
        Dictionary.find? (run emptyBackend [] {} apart).1.cached "sales" = some rows ∧
          ∃ id f, Supplies emptyBackend [] apart "sales" id ∧
            (run emptyBackend [] {} apart).1.fetches[id]? = some f ∧ f.document ≠ some "north") := by
  have separate : AreSeparate apart := by
    intro source document asked
    simp only [apart, List.mem_cons, Action.get.injEq, reduceCtorEq, false_or, List.not_mem_nil,
      or_false] at asked
    rcases asked with ⟨rfl, rfl⟩ | ⟨rfl, rfl⟩ <;> simp [IsSeparate]
  have numbers : 0 ∈ (run emptyBackend [] {} apart).2.map Prod.fst := by decide
  obtain ⟨answered, invalidated⟩ := requests_are_isolated emptyBackend [] apart separate
  obtain ⟨-, cached⟩ := invalidated "north" (by decide)
  refine ⟨?_, cached "sales"⟩
  obtain ⟨⟨_, rows⟩, member, rfl⟩ := List.mem_map.mp numbers
  obtain ⟨id, gets, found⟩ := answered [] _ _ _ rows rfl rfl member
  exact ⟨rows, id, member, gets, found⟩

/-- A request under a document, one outside all documents with the same key, and one under another
document whose name goes on behind a colon. -/
def colliding : List Action :=
  [.get "sales" (some "north"), .move 0, .move 0, .move 0, .take ⟨0, "north:sales", 0⟩,
    .get "north:sales" none, .get "sales" (some "north:east"), .move 1, .move 1, .move 1,
    .take ⟨2, "north:east:sales", 1⟩]

/-- The second request is answered with the rows of the first: there is no fetch outside all documents,
where there would be no rows. Invalidating the first document removes the rows of the other too. -/
theorem rows_colliding :
    let backend : Backend :=
      ⟨fun _ => some "-- sales\nQ", fun _ => some ⟨["month", "sum"], [[.str "Jan", .int 1]]⟩, true⟩
    let whole := run backend [] {} colliding
    whole.2.map (fun answer => (answer.1, answer.2.length)) = [(0, 1), (1, 1), (2, 1)] ∧
      whole.1.origins = [("sales", some "north"), ("sales", some "north:east")] ∧
        whole.1.cached.map Prod.fst = ["north:east:sales", "north:sales"] ∧
          (whole.1.invalidate (some "north")).cached.map Prod.fst = [] := by
  decide

end Cache

end Dashboard.DataSource
