import Dashboard.Proofs.DataSource.Sharing
import Mathlib.Data.List.Induction

/-!
No rows outlive an invalidation. What is cached under a key, and what a request for it is answered
with, comes from a fetch that was begun after the last invalidation of the key. A fetch that is no
longer pending, whether it was invalidated or a request has taken its rows, changes nothing for the
fetches after it.
-/
namespace Dashboard.DataSource.Cache

variable {backend : Backend} {statics : Dictionary Rows} {c d : Cache} {key : String} {id : Nat}
  {action : Action} {answered : List (Nat × Rows)}

theorem count_le_run (c : Cache) (actions : List Action) :
    c.fetches.length ≤ (run backend statics c actions).1.fetches.length := by
  induction actions generalizing c with
  | nil => exact le_rfl
  | cons first more ih => exact (happens_act backend statics c first).count_le.trans (ih _)

/-- A fetch that was begun for the key, and after every invalidation of it among these actions. -/
structure IsFresh (backend : Backend) (statics : Dictionary Rows) (actions : List Action)
    (key : String) (c : Cache) (id : Nat) : Prop where
  known : c.keyOf? id = some key
  begun : ∀ before document rest, actions = before ++ .invalidate document :: rest →
    covers document key = true → (run backend statics {} before).1.fetches.length ≤ id

/-- Every run falls into what comes before the last invalidation of a key, and a rest that spares
the key. -/
theorem exists_opens (key : String) (actions : List Action) : ∃ before window,
    actions = before ++ window ∧ Opens key before ∧ ∀ action ∈ window, Spares key action := by
  induction actions using List.reverseRecOn with
  | nil => exact ⟨[], [], rfl, Or.inl rfl, by simp⟩
  | append_singleton earlier last ih =>
    obtain ⟨before, window, rfl, opens, spares⟩ := ih
    by_cases spared : Spares key last
    · refine ⟨before, window ++ [last], by simp, opens, ?_⟩
      exact List.forall_mem_append.mpr ⟨spares, List.forall_mem_singleton.mpr spared⟩
    · obtain ⟨document, rfl, covered⟩ : ∃ document, last = .invalidate document ∧
          covers document key = true := by
        simpa [Spares] using spared
      exact ⟨before ++ window ++ [.invalidate document], [], by simp,
        Or.inr ⟨_, document, rfl, covered⟩, by simp⟩

/-- An invalidation of the key lies before the window that spares it. -/
theorem prefix_of_spares {before window earlier rest : List Action} {document : Option String}
    (spares : ∀ action ∈ window, Spares key action) (covered : covers document key = true)
    (same : before ++ window = earlier ++ .invalidate document :: rest) : earlier <+: before := by
  rcases List.append_eq_append_iff.mp same with ⟨more, -, inside⟩ | ⟨more, whole, -⟩
  · have spared := spares (.invalidate document) (by simp [inside]) document rfl
    rw [covered] at spared
    cases spared
  · exact ⟨more, whole.symm⟩

/-- What was begun for a key after its last invalidation was begun after all of them. -/
theorem IsFresh.of_mem_begunFor {before window : List Action}
    (spares : ∀ action ∈ window, Spares key action)
    (member : id ∈ begunFor key (run backend statics {} before).1.fetches.length c) :
    IsFresh backend statics (before ++ window) key c id := by
  obtain ⟨-, later⟩ := List.mem_filter.mp member
  obtain ⟨later, known⟩ := Bool.and_eq_true_iff.mp later
  refine ⟨eq_of_beq known, fun earlier document rest same covered => ?_⟩
  obtain ⟨more, rfl⟩ := prefix_of_spares spares covered same
  rw [run_append_fst] at later
  exact (count_le_run _ more).trans (of_decide_eq_true later)

theorem IsFresh.extends {actions : List Action} (fresh : IsFresh backend statics actions key c id)
    (grows : Extends c d) : IsFresh backend statics actions key d id :=
  ⟨grows.keys id key fresh.known, fresh.begun⟩

/-! Where the rows in the cache come from. -/

/-- Only a request that takes the rows of the pending fetch of a key puts rows in the cache. -/
theorem Happens.enters (step : Happens statics c action d answered) {rows : Rows}
    (held : Dictionary.find? d.cached key = some rows) :
    Dictionary.find? c.cached key = some rows ∨ ∃ request ∈ c.waiting, action = .take request ∧
      Dictionary.find? c.pending key = some request.fetch ∧
        c.rowsOf? request.fetch = some rows := by
  cases step with
  | given | hit | joined | begun | dropped => exact Or.inl held
  | aged ages => exact Or.inl (ages.cached ▸ held)
  | @taken request all waits found =>
    unfold keep at held
    split_ifs at held with current
    · rw [Dictionary.find?_insert] at held
      split_ifs at held with same
      · obtain rfl := Option.some.inj held
        exact Or.inr ⟨request, waits, rfl, same ▸ current, found⟩
      · exact Or.inl held
    · exact Or.inl held
  | invalidated =>
    rw [find?_cached_invalidate] at held
    split_ifs at held
    exact Or.inl held

/-- What is cached under a key behind an action was not invalidated by it. -/
theorem spares_of_held {rows : Rows}
    (held : Dictionary.find? (act backend statics c action).1.cached key = some rows) :
    Spares key action := by
  rintro document rfl
  rw [act, find?_cached_invalidate] at held
  split_ifs at held with covered
  exact Bool.not_eq_true _ ▸ covered

/-- A fetch whose rows are cached under a key: a request took them while the fetch was the pending one
of the key, and the key has not been invalidated since. -/
def Supplies (backend : Backend) (statics : Dictionary Rows) (actions : List Action) (key : String)
    (id : Nat) : Prop :=
  ∃ front request rest, actions = front ++ .take request :: rest ∧ request.fetch = id ∧
    request ∈ (run backend statics {} front).1.waiting ∧
      Dictionary.find? (run backend statics {} front).1.pending key = some id ∧
        ∀ action ∈ rest, Spares key action

theorem exists_supplies {actions : List Action} {rows : Rows}
    (held : Dictionary.find? (run backend statics {} actions).1.cached key = some rows) :
    ∃ id, Supplies backend statics actions key id ∧
      (run backend statics {} actions).1.rowsOf? id = some rows := by
  induction actions using List.reverseRecOn with
  | nil => cases held
  | append_singleton earlier last ih =>
    rw [run_append_fst] at held ⊢
    have step := happens_act backend statics (run backend statics {} earlier).1 last
    have spared : Spares key last := spares_of_held held
    rcases step.enters held with before | ⟨request, waits, rfl, pending, fetched⟩
    · obtain ⟨id, ⟨front, request, rest, rfl, fetch, waits, pending, spares⟩, fetched⟩ := ih before
      refine ⟨id, ⟨front, request, rest ++ [last], by simp, fetch, waits, pending, ?_⟩,
        step.extends.rows id rows fetched⟩
      exact List.forall_mem_append.mpr ⟨spares, List.forall_mem_singleton.mpr spared⟩
    · exact ⟨request.fetch, ⟨earlier, request, [], rfl, rfl, waits, pending, by simp⟩,
        step.extends.rows _ rows fetched⟩

/-- Cached rows are those of a fresh fetch. -/
theorem Supplies.isFresh {actions : List Action} (h : Supplies backend statics actions key id) :
    IsFresh backend statics actions key (run backend statics {} actions).1 id := by
  obtain ⟨front, request, rest, rfl, -, -, pending, spared⟩ := h
  obtain ⟨before, window, rfl, opens, spares⟩ := exists_opens key front
  obtain ⟨shares, -⟩ := @Opens.run backend statics _ _ _ opens spares
  have one := shares.eq_of_pending (isSound_empty.run _) pending
  have later : ∀ action ∈ window ++ .take request :: rest, Spares key action := by
    refine List.forall_mem_append.mpr ⟨spares, List.forall_mem_cons.mpr ⟨?_, spared⟩⟩
    rintro document ⟨⟩
  have fresh := IsFresh.of_mem_begunFor later (one ▸ List.mem_singleton_self id)
  rw [← List.append_assoc] at fresh
  refine fresh.extends ?_
  rw [run_append_fst (before ++ window)]
  exact extends_run backend statics _ _

/-! Where the rows of an answer come from. -/

/-- A request is answered at once with static or cached rows, or takes the rows of its fetch. -/
theorem Happens.answers (step : Happens statics c action d answered) {answer : Nat × Rows}
    (member : answer ∈ answered) :
    (answer.1 = c.requests ∧ ∃ source document, action = .get source document ∧
        (Dictionary.find? statics source = some answer.2 ∨
          Dictionary.find? c.cached (cacheKey source document) = some answer.2)) ∨
      ∃ request ∈ c.waiting, action = .take request ∧ request.number = answer.1 := by
  cases step with
  | @given source document rows found =>
    rw [List.mem_singleton.mp member]
    exact Or.inl ⟨rfl, source, document, rfl, Or.inl found⟩
  | @hit source document rows _ found =>
    rw [List.mem_singleton.mp member]
    exact Or.inl ⟨rfl, source, document, rfl, Or.inr found⟩
  | @taken request rows waits _ =>
    rw [List.mem_singleton.mp member]
    exact Or.inr ⟨request, waits, rfl, rfl⟩
  | joined | begun | aged | dropped | invalidated => cases member

/-- A request that is answered after it has begun takes the rows of a fetch. -/
theorem exists_take (sound : c.IsSound) {number : Nat} {rows : Rows} {actions : List Action}
    (given : number < c.requests) (member : (number, rows) ∈ (run backend statics c actions).2) :
    ∃ front request rest, actions = front ++ .take request :: rest ∧ request.number = number ∧
      request ∈ (run backend statics c front).1.waiting := by
  induction actions generalizing c with
  | nil => cases member
  | cons first more ih =>
    have step := happens_act backend statics c first
    rcases List.mem_append.mp member with now | later
    · rcases step.answers now with ⟨same, -⟩ | ⟨request, waits, rfl, same⟩
      · exact absurd same given.ne
      · exact ⟨[], request, more, rfl, same, waits⟩
    · obtain ⟨front, request, rest, rfl, same, waits⟩ :=
        ih (sound.happens step) (given.trans_le (step.requests sound).1) later
      exact ⟨first :: front, request, rest, rfl, same, waits⟩

/-- A request waits for the same fetch as long as it waits. -/
theorem Awaits.run_bound {number : Nat} (h : Awaits number id c) (actions : List Action) :
    Awaits number id (Cache.run backend statics c actions).1 := by
  induction actions generalizing c with
  | nil => exact h
  | cons first more ih => exact ih (h.happens (happens_act backend statics c first)).1

/-- A request that begins behind `front` gets the rows of a fetch: it finds them in the cache, or it
waits for the fetch and takes them. -/
def Gets (backend : Backend) (statics : Dictionary Rows) (front : List Action) (source : String)
    (document : Option String) (rest : List Action) (id : Nat) : Prop :=
  Supplies backend statics front (cacheKey source document) id ∨
    ∃ middle request later, rest = middle ++ .take request :: later ∧ request.fetch = id ∧
      request.number = (run backend statics {} front).1.requests ∧
        request ∈ (run backend statics {} (front ++ .get source document :: middle)).1.waiting

/-- A request is answered with the rows of a fetch that was fresh when the request began. -/
theorem exists_gets {front rest : List Action} {source : String} {document : Option String}
    {rows : Rows} (dynamic : Dictionary.find? statics source = none)
    (member : ((run backend statics {} front).1.requests, rows) ∈
      (run backend statics {} (front ++ .get source document :: rest)).2) :
    ∃ id, Gets backend statics front source document rest id ∧
      IsFresh backend statics front (cacheKey source document)
        (run backend statics {} (front ++ .get source document :: rest)).1 id ∧
      (run backend statics {} (front ++ .get source document :: rest)).1.rowsOf? id = some rows := by
  have sound : (run backend statics {} front).1.IsSound := isSound_empty.run front
  have step := happens_act backend statics (run backend statics {} front).1 (.get source document)
  have grows := step.extends.trans (extends_run backend statics _ rest)
  rw [run_append] at member ⊢
  rcases List.mem_append.mp member with early | late
  · exact absurd ((lt_of_mem_answered isSound_empty _).2 _ early) (lt_irrefl _)
  rcases List.mem_append.mp late with now | later
  · rcases step.answers now with ⟨-, _, _, same, found⟩ | ⟨_, _, other, _⟩
    · cases same
      have held := found.resolve_left (by simp [dynamic])
      obtain ⟨id, supplies, fetched⟩ := exists_supplies held
      exact ⟨id, Or.inl supplies, supplies.isFresh.extends grows, grows.rows id rows fetched⟩
    · cases other
  · obtain ⟨before, window, rfl, opens, spares⟩ := exists_opens (cacheKey source document) front
    obtain ⟨shares, count⟩ := @Opens.run backend statics _ _ _ opens spares
    obtain ⟨id, one, awaits, -⟩ := shares.get sound count dynamic step
    obtain ⟨middle, request, others, rfl, same, waits⟩ :=
      exists_take (sound.happens step) awaits.given later
    have fetch := (awaits.run_bound middle).bound request waits same
    refine ⟨id, Or.inr ⟨middle, request, others, rfl, fetch, same, ?_⟩, ?_, ?_⟩
    · rw [run_append_fst]
      exact waits
    · have fresh := IsFresh.of_mem_begunFor spares (one ▸ List.mem_singleton_self id)
      exact fresh.extends (extends_run backend statics _ _)
    · exact awaits.run _ rows later

/-! Fetches that are no longer pending. -/

/-- A fetch that was begun and is not pending. -/
structure IsRetired (id : Nat) (c : Cache) : Prop where
  begun : id < c.fetches.length
  gone : ∀ entry ∈ c.pending, entry.2 ≠ id

namespace IsRetired

theorem happens (h : IsRetired id c) (step : Happens statics c action d answered) :
    IsRetired id d := by
  refine ⟨h.begun.trans_le step.count_le, ?_⟩
  cases step with
  | given | hit | joined | dropped => exact h.gone
  | begun =>
    intro entry member
    rcases Dictionary.mem_insert member with rfl | before
    · exact h.begun.ne'
    · exact h.gone entry before
  | aged ages => exact ages.pending ▸ h.gone
  | taken =>
    unfold keep
    split_ifs
    · exact fun entry member => h.gone entry (List.mem_filter.mp member).1
    · exact h.gone
  | invalidated => exact fun entry member => h.gone entry (List.mem_filter.mp member).1

theorem run (h : IsRetired id c) (actions : List Action) :
    IsRetired id (Cache.run backend statics c actions).1 := by
  induction actions generalizing c with
  | nil => exact h
  | cons first more ih => exact ih (h.happens (happens_act backend statics c first))

end IsRetired

/-- It has no query files, and answers at once. -/
def emptyBackend : Backend := ⟨fun _ => none, fun _ => none, true⟩

end Dashboard.DataSource.Cache
