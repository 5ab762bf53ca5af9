import Dashboard.DataSource
import Dashboard.Proofs.Dictionary

/-!
Runs of a cache, one small action after the other, in any order: requests begin, fetches make a move,
a waiting request takes its rows, calls are answered, requests are dropped, keys are invalidated. A
fetch may have its rows long before a request takes them, and anything may happen in between.
-/
namespace Dashboard.DataSource

def Fetch.key (f : Fetch) : String := cacheKey f.source f.document

/-- The smallest things that happen to a cache. -/
inductive Action where
  | get (source : String) (document : Option String)
  | move (fetch : Nat)
  | take (request : Request)
  | settle (call : Nat)
  | drop (request : Nat)
  | invalidate (document : Option String)
  deriving DecidableEq, Repr

namespace Cache

/-- A request takes the rows of its fetch, and no longer waits. -/
def take (c : Cache) (request : Request) : Cache × List (Nat × Rows) :=
  match c.rowsOf? request.fetch with
  | some rows =>
    ({ c.keep request rows with waiting := c.waiting.filter (· ≠ request) },
      [(request.number, rows)])
  | none => (c, [])

section Backend

variable (backend : Backend) (statics : Dictionary Rows)

/-- What an action changes, and the request it answers. -/
def act (c : Cache) : Action → Cache × List (Nat × Rows)
  | .get source document => c.apply statics (.get source document)
  | .move id => (c.move backend id, [])
  | .take request => if request ∈ c.waiting then c.take request else (c, [])
  | .settle call => (c.settle call, [])
  | .drop request => (c.drop request, [])
  | .invalidate document => (c.invalidate document, [])

/-- Actions in order, with all the requests that they answer. -/
def run (c : Cache) : List Action → Cache × List (Nat × Rows)
  | [] => (c, [])
  | first :: more =>
    let (next, answered) := act backend statics c first
    let (last, later) := run next more
    (last, answered ++ later)

end Backend

variable {backend : Backend} {statics : Dictionary Rows} {c d : Cache}

@[simp] theorem run_nil : run backend statics c [] = (c, []) := rfl

theorem run_cons (first : Action) (more : List Action) : run backend statics c (first :: more) =
    ((run backend statics (act backend statics c first).1 more).1,
      (act backend statics c first).2 ++ (run backend statics (act backend statics c first).1 more).2) :=
  rfl

theorem run_append (front back : List Action) : run backend statics c (front ++ back) =
    ((run backend statics (run backend statics c front).1 back).1,
      (run backend statics c front).2 ++
        (run backend statics (run backend statics c front).1 back).2) := by
  induction front generalizing c with
  | nil => rfl
  | cons first more ih => simp [run_cons, ih]

theorem run_append_fst (front back : List Action) : (run backend statics c (front ++ back)).1 =
    (run backend statics (run backend statics c front).1 back).1 := by
  rw [run_append]

/-- The key that a fetch was begun for. -/
def keyOf? (c : Cache) (id : Nat) : Option String := c.fetches[id]?.map Fetch.key

/-- Fetches stay, for the same keys, and one that has its rows keeps them. -/
structure Extends (c d : Cache) : Prop where
  keys : ∀ id key, c.keyOf? id = some key → d.keyOf? id = some key
  rows : ∀ id rows, c.rowsOf? id = some rows → d.rowsOf? id = some rows

namespace Extends

theorem of_fetches (same : d.fetches = c.fetches) : Extends c d := by
  constructor
  · intro id key known
    rwa [keyOf?, same]
  · intro id rows known
    rwa [rowsOf?, same]

theorem trans {e : Cache} (h : Extends c d) (k : Extends d e) : Extends c e :=
  ⟨fun id key known => k.keys id key (h.keys id key known),
    fun id rows known => k.rows id rows (h.rows id rows known)⟩

theorem keyOf?_eq (h : Extends c d) {id : Nat} (inside : id < c.fetches.length) :
    d.keyOf? id = c.keyOf? id := by
  have known : c.keyOf? id = some (c.fetches[id].key) := by
    rw [keyOf?, List.getElem?_eq_getElem inside]
    rfl
  rw [known, h.keys id _ known]

end Extends

/-- Fetches go on, and calls; nothing else changes. -/
structure Ages (c d : Cache) : Prop extends Extends c d where
  count : d.fetches.length = c.fetches.length
  cached : d.cached = c.cached
  pending : d.pending = c.pending
  waiting : d.waiting = c.waiting
  requests : d.requests = c.requests

/-- Everything that an action can do. -/
inductive Happens (statics : Dictionary Rows) (c : Cache) :
    Action → Cache → List (Nat × Rows) → Prop
  | given {source document rows} (found : Dictionary.find? statics source = some rows) :
    Happens statics c (.get source document) { c with requests := c.requests + 1 }
      [(c.requests, rows)]
  | hit {source document rows} (dynamic : Dictionary.find? statics source = none)
    (found : Dictionary.find? c.cached (cacheKey source document) = some rows) :
    Happens statics c (.get source document) { c with requests := c.requests + 1 }
      [(c.requests, rows)]
  | joined {source document id} (dynamic : Dictionary.find? statics source = none)
    (missed : Dictionary.find? c.cached (cacheKey source document) = none)
    (found : Dictionary.find? c.pending (cacheKey source document) = some id) :
    Happens statics c (.get source document)
      { c with
        requests := c.requests + 1
        waiting := c.waiting ++ [⟨c.requests, cacheKey source document, id⟩] } []
  | begun {source document} (dynamic : Dictionary.find? statics source = none)
    (missed : Dictionary.find? c.cached (cacheKey source document) = none)
    (alone : Dictionary.find? c.pending (cacheKey source document) = none) :
    Happens statics c (.get source document)
      { c with
        requests := c.requests + 1
        fetches := c.fetches ++ [⟨source, document, .idle⟩]
        pending := Dictionary.insert (cacheKey source document) c.fetches.length c.pending
        waiting := c.waiting ++ [⟨c.requests, cacheKey source document, c.fetches.length⟩] } []
  | aged {action d} (ages : Ages c d) (other : ∀ source document, action ≠ .get source document) :
    Happens statics c action d []
  | taken {request rows} (waits : request ∈ c.waiting)
    (found : c.rowsOf? request.fetch = some rows) :
    Happens statics c (.take request)
      { c.keep request rows with waiting := c.waiting.filter (· ≠ request) } [(request.number, rows)]
  | dropped {number} : Happens statics c (.drop number) (c.drop number) []
  | invalidated {document} : Happens statics c (.invalidate document) (c.invalidate document) []

theorem Ages.refl (c : Cache) : Ages c c :=
  ⟨.of_fetches rfl, rfl, rfl, rfl, rfl, rfl⟩

/-- A move of a fetch makes a call or none. -/
theorem moveStage_eq (backend : Backend) (c : Cache) (fetch : Fetch) : ∃ calls stage,
    moveStage backend c fetch = ({ c with calls := calls }, stage) ∧
      ∀ rows, fetch.stage = .finished rows → stage = .finished rows := by
  unfold moveStage
  split
  · next idle =>
    unfold begin
    split <;> exact ⟨_, _, rfl, by simp [idle]⟩
  · next call loading =>
    split_ifs
    · unfold afterLoad
      split <;> exact ⟨_, _, rfl, by simp [loading]⟩
    · exact ⟨_, _, rfl, fun _ => id⟩
  · next call executing =>
    split_ifs
    · exact ⟨_, _, rfl, by simp [executing]⟩
    · exact ⟨_, _, rfl, fun _ => id⟩
  · exact ⟨_, _, rfl, fun _ => id⟩

theorem ages_move (backend : Backend) (c : Cache) (id : Nat) : Ages c (c.move backend id) := by
  unfold move
  split
  · exact Ages.refl c
  · next fetch found =>
    obtain ⟨calls, stage, moved, keeps⟩ := moveStage_eq backend c fetch
    rw [moved]
    refine ⟨⟨fun other key => ?_, fun other rows => ?_⟩, List.length_set, rfl, rfl, rfl, rfl⟩
    · simp only [keyOf?, List.getElem?_set]
      split_ifs with same inside
      · obtain rfl := same
        rw [found]
        exact fun known => known
      · simp [same.symm ▸ List.getElem?_eq_none (not_lt.mp inside)]
      · exact fun known => known
    · simp only [rowsOf?, List.getElem?_set]
      split_ifs with same inside
      · obtain rfl := same
        rw [found]
        intro known
        cases shape : fetch.stage with
        | finished all => simpa [shape, keeps all shape] using known
        | _ => simp [shape] at known
      · simp [same.symm ▸ List.getElem?_eq_none (not_lt.mp inside)]
      · exact fun known => known

theorem happens_act (backend : Backend) (statics : Dictionary Rows) (c : Cache) (action : Action) :
    Happens statics c action (act backend statics c action).1 (act backend statics c action).2 := by
  cases action with
  | get source document =>
    cases static : Dictionary.find? statics source with
    | some rows =>
      simp only [act, apply, get, static]
      exact .given static
    | none =>
      cases found : Dictionary.find? c.cached (cacheKey source document) with
      | some rows =>
        simp only [act, apply, get, static, found]
        exact .hit static found
      | none =>
        cases under : Dictionary.find? c.pending (cacheKey source document) with
        | some id =>
          simp only [act, apply, get, static, found, join, under]
          exact .joined static found under
        | none =>
          simp only [act, apply, get, static, found, join, under]
          exact .begun static found under
  | move id => exact .aged (ages_move backend c id) (by simp)
  | take request =>
    simp only [act, take]
    split_ifs with waits
    · split
      · next rows found => exact .taken waits found
      · exact .aged (Ages.refl c) (by simp)
    · exact .aged (Ages.refl c) (by simp)
  | settle call => exact .aged ⟨.of_fetches rfl, rfl, rfl, rfl, rfl, rfl⟩ (by simp)
  | drop number => exact .dropped
  | invalidate document => exact .invalidated

/-- Nothing that happens changes the rows or the key of a fetch. -/
theorem Happens.extends {action : Action} {answered : List (Nat × Rows)}
    (h : Happens statics c action d answered) : Extends c d := by
  cases h with
  | given | hit | joined | dropped | invalidated => exact .of_fetches rfl
  | aged ages => exact ages.toExtends
  | taken =>
    refine .of_fetches ?_
    unfold keep
    split_ifs <;> rfl
  | begun =>
    refine ⟨fun id key known => ?_, fun id rows known => ?_⟩
    · obtain ⟨f, found, rfl⟩ := Option.map_eq_some_iff.mp known
      have inside := (List.getElem?_eq_some_iff.mp found).1
      simp [keyOf?, List.getElem?_append_left inside, found]
    · cases found : c.fetches[id]? with
      | none => simp [rowsOf?, found] at known
      | some f =>
        have inside := (List.getElem?_eq_some_iff.mp found).1
        simpa [rowsOf?, List.getElem?_append_left inside] using known

theorem find?_pending_invalidate (c : Cache) (document : Option String) (key : String) :
    Dictionary.find? (c.invalidate document).pending key =
      if covers document key then none else Dictionary.find? c.pending key := by
  refine (Dictionary.find?_filter c.pending (fun name => !covers document name) key).trans ?_
  cases covers document key <;> rfl

theorem find?_cached_invalidate (c : Cache) (document : Option String) (key : String) :
    Dictionary.find? (c.invalidate document).cached key =
      if covers document key then none else Dictionary.find? c.cached key := by
  refine (Dictionary.find?_filter c.cached (fun name => !covers document name) key).trans ?_
  cases covers document key <;> rfl

/-! What holds of a cache at every point. -/

/-- A key is under way or cached, not both; a pending fetch was begun for its key; requests wait for
fetches of their keys. -/
structure IsSound (c : Cache) : Prop where
  ordered : Dictionary.IsOrdered c.pending
  apart : ∀ key, Dictionary.contains c.pending key = true → Dictionary.contains c.cached key = false
  owned : ∀ entry ∈ c.pending, c.keyOf? entry.2 = some entry.1
  awaited : ∀ r ∈ c.waiting, r.number < c.requests ∧ c.keyOf? r.fetch = some r.key
  distinct : c.waiting.Nodup

theorem isSound_empty : IsSound {} :=
  ⟨Dictionary.isOrdered_nil, fun _ _ => rfl, by simp, by simp, List.nodup_nil⟩

namespace IsSound

/-- A new request waits behind the others. -/
theorem awaited_append (h : c.IsSound) (grows : Extends c d) (waiting : d.requests = c.requests + 1)
    {key : String} {id : Nat} (known : d.keyOf? id = some key)
    (joins : d.waiting = c.waiting ++ [⟨c.requests, key, id⟩]) :
    (∀ r ∈ d.waiting, r.number < d.requests ∧ d.keyOf? r.fetch = some r.key) ∧ d.waiting.Nodup := by
  rw [joins, waiting]
  constructor
  · refine List.forall_mem_append.mpr ⟨fun r member => ?_, List.forall_mem_singleton.mpr ?_⟩
    · obtain ⟨below, fetched⟩ := h.awaited r member
      exact ⟨Nat.lt_succ_of_lt below, grows.keys _ _ fetched⟩
    · exact ⟨Nat.lt_succ_self _, known⟩
  · refine List.nodup_append.mpr ⟨h.distinct, by simp, ?_⟩
    rintro r member _ new rfl
    rw [List.mem_singleton.mp new] at member
    exact lt_irrefl _ (h.awaited _ member).1

theorem happens (h : c.IsSound) {action : Action} {answered : List (Nat × Rows)}
    (step : Happens statics c action d answered) : d.IsSound := by
  have grows := step.extends
  cases step with
  | given | hit =>
    exact ⟨h.ordered, h.apart, h.owned,
      fun r member => ⟨Nat.lt_succ_of_lt (h.awaited r member).1, (h.awaited r member).2⟩, h.distinct⟩
  | joined dynamic missed found =>
    have known := h.owned _ (Dictionary.mem_of_find?_eq_some found)
    obtain ⟨awaited, distinct⟩ := h.awaited_append grows rfl known rfl
    exact ⟨h.ordered, h.apart, h.owned, awaited, distinct⟩
  | @begun source document dynamic missed alone =>
    have known : (c.fetches ++ [Fetch.mk source document .idle])[c.fetches.length]?.map Fetch.key =
        some (cacheKey source document) := by
      simp [Fetch.key]
    obtain ⟨awaited, distinct⟩ := h.awaited_append grows rfl known rfl
    refine ⟨h.ordered.insert _ _, fun key held => ?_, fun entry member => ?_, awaited, distinct⟩
    · rw [Dictionary.contains_insert, Bool.or_eq_true, decide_eq_true_eq] at held
      rcases held with rfl | before
      · simp [Dictionary.contains, missed]
      · exact h.apart key before
    · rcases Dictionary.mem_insert member with rfl | before
      · exact known
      · exact grows.keys _ _ (h.owned entry before)
  | aged ages =>
    refine ⟨ages.pending ▸ h.ordered, ?_, ?_, ?_, ages.waiting ▸ h.distinct⟩
    · rw [ages.pending, ages.cached]
      exact h.apart
    · rw [ages.pending]
      exact fun entry member => grows.keys _ _ (h.owned entry member)
    · rw [ages.waiting, ages.requests]
      exact fun r member => ⟨(h.awaited r member).1, grows.keys _ _ (h.awaited r member).2⟩
  | @taken request rows waits found =>
    have awaited : ∀ r ∈ c.waiting.filter (· ≠ request),
        r.number < c.requests ∧ c.keyOf? r.fetch = some r.key :=
      fun r member => h.awaited r (List.mem_filter.mp member).1
    unfold keep
    split_ifs with current
    · refine ⟨h.ordered.filter _, fun key held => ?_, fun entry member => ?_, awaited,
        h.distinct.filter _⟩
      · rw [Dictionary.contains, Dictionary.find?_erase] at held
        split_ifs at held with other
        · cases held
        · rw [Dictionary.contains_insert, h.apart key held]
          simp [other]
      · exact h.owned entry (List.mem_filter.mp member).1
    · exact ⟨h.ordered, h.apart, h.owned, awaited, h.distinct.filter _⟩
  | dropped =>
    exact ⟨h.ordered, h.apart, h.owned, fun r member => h.awaited r (List.mem_filter.mp member).1,
      h.distinct.filter _⟩
  | @invalidated document =>
    refine ⟨h.ordered.filter _, fun key held => ?_, fun entry member => ?_, h.awaited, h.distinct⟩
    · rw [Dictionary.contains, find?_pending_invalidate] at held
      rw [Dictionary.contains, find?_cached_invalidate]
      split_ifs at held ⊢ with covered
      · rfl
      · exact h.apart key held
    · exact h.owned entry (List.mem_filter.mp member).1

theorem run (h : c.IsSound) (actions : List Action) :
    (Cache.run backend statics c actions).1.IsSound := by
  induction actions generalizing c with
  | nil => exact h
  | cons first more ih => exact ih (h.happens (happens_act backend statics c first))

end IsSound

/-! Requests are answered under their own numbers. -/

theorem Happens.requests (h : c.IsSound) {action : Action} {answered : List (Nat × Rows)}
    (step : Happens statics c action d answered) :
    c.requests ≤ d.requests ∧ ∀ answer ∈ answered, answer.1 < d.requests := by
  cases step with
  | given | hit => simp
  | joined | begun => simp
  | aged ages => simp [ages.requests]
  | taken waits =>
    unfold keep
    split_ifs <;> simp [(h.awaited _ waits).1]
  | dropped | invalidated => exact ⟨le_rfl, by simp⟩

/-- Whatever has been answered has a number that was given out. -/
theorem lt_of_mem_answered (h : c.IsSound) (actions : List Action) :
    c.requests ≤ (run backend statics c actions).1.requests ∧
      ∀ answer ∈ (run backend statics c actions).2,
        answer.1 < (run backend statics c actions).1.requests := by
  induction actions generalizing c with
  | nil => simp
  | cons first more ih =>
    have step := happens_act backend statics c first
    obtain ⟨grows, here⟩ := step.requests h
    obtain ⟨more, later⟩ := ih (h.happens step)
    refine ⟨grows.trans more, List.forall_mem_append.mpr ⟨fun answer member => ?_, later⟩⟩
    exact (here answer member).trans_le more

/-! A step of the cache is a run: the event, and then every waiting request moves its fetch as far as
it goes and takes the rows if they are there. -/

def answerOf (request : Request) : Option Rows → List (Nat × Rows)
  | some rows => [(request.number, rows)]
  | none => []

theorem waiting_keep (c : Cache) (request : Request) (rows : Rows) :
    (c.keep request rows).waiting = c.waiting := by
  unfold keep
  split_ifs <;> rfl

theorem waiting_drive (backend : Backend) (c : Cache) (id : Nat) :
    (c.drive backend id).waiting = c.waiting := by
  rw [drive, (ages_move backend _ id).waiting, (ages_move backend _ id).waiting,
    (ages_move backend _ id).waiting]

theorem run_poll {request : Request} (waits : request ∈ c.waiting) :
    run backend statics c [.move request.fetch, .move request.fetch, .move request.fetch,
        .take request] =
      ((poll backend c request).1, answerOf request (poll backend c request).2) := by
  have still : request ∈ (c.drive backend request.fetch).waiting := by
    rwa [waiting_drive]
  have whole : run backend statics c [.move request.fetch, .move request.fetch, .move request.fetch,
      .take request] = run backend statics (c.drive backend request.fetch) [.take request] := rfl
  rw [whole, run_cons, act, if_pos still, run_nil, List.append_nil, take, poll]
  cases (c.drive backend request.fetch).rowsOf? request.fetch with
  | none => rfl
  | some rows => simp [answerOf, waiting_keep]

theorem waiting_poll {request other : Request} (apart : other ≠ request)
    (waits : other ∈ c.waiting) : other ∈ (poll backend c request).1.waiting := by
  have still : other ∈ (c.drive backend request.fetch).waiting := by
    rwa [waiting_drive]
  unfold poll
  dsimp only
  split
  · exact still
  · simp [waiting_keep, still, apart]

/-- Polls one more request. -/
def pollNext (backend : Backend) (before : Cache × List (Nat × Rows)) (request : Request) :
    Cache × List (Nat × Rows) :=
  ((poll backend before.1 request).1,
    before.2 ++ answerOf request (poll backend before.1 request).2)

theorem advance_eq (backend : Backend) (c : Cache) :
    advance backend c = c.waiting.foldl (pollNext backend) (c, []) := by
  unfold advance
  congr 1
  funext before request
  unfold pollNext
  rcases poll backend before.1 request with ⟨next, none | rows⟩ <;> simp [answerOf]

theorem exists_run_polls {requests : List Request} (distinct : requests.Nodup)
    (waits : ∀ r ∈ requests, r ∈ c.waiting) (answered : List (Nat × Rows)) : ∃ actions,
    requests.foldl (pollNext backend) (c, answered) =
      ((run backend statics c actions).1, answered ++ (run backend statics c actions).2) := by
  induction requests generalizing c answered with
  | nil => exact ⟨[], by simp⟩
  | cons first more ih =>
    obtain ⟨new, distinct⟩ := List.nodup_cons.mp distinct
    obtain ⟨here, later⟩ := List.forall_mem_cons.mp waits
    have others : ∀ r ∈ more, r ∈ (poll backend c first).1.waiting := fun r member =>
      waiting_poll (fun same => new (same ▸ member)) (later r member)
    obtain ⟨actions, polled⟩ := ih distinct others (answered ++ answerOf first (poll backend c first).2)
    refine ⟨[.move first.fetch, .move first.fetch, .move first.fetch, .take first] ++ actions, ?_⟩
    rw [run_append, run_poll here, ← List.append_assoc, ← polled, List.foldl_cons, pollNext]

/-- What an event begins with, as an action. -/
def actionOf : Event → Action
  | .get source document => .get source document
  | .settle call => .settle call
  | .drop request => .drop request
  | .invalidate document => .invalidate document

/-- A step of a cache is one of its runs. -/
theorem exists_run_step (h : c.IsSound) (event : Event) : ∃ actions,
    step backend statics c event = run backend statics c (actionOf event :: actions) := by
  have begins : c.apply statics event = act backend statics c (actionOf event) := by
    cases event <;> rfl
  have sound := h.happens (happens_act backend statics c (actionOf event))
  obtain ⟨actions, polled⟩ := @exists_run_polls backend statics _ _ sound.distinct (fun _ => id) []
  refine ⟨actions, ?_⟩
  rw [step, begins]
  dsimp only
  rw [advance_eq, polled, run_cons, List.nil_append]

end Cache

end Dashboard.DataSource
