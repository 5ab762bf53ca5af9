import Dashboard.Proofs.DataSource.Runs

/-!
Requests share fetches. Between two invalidations of a key at most one fetch is begun for it, whatever
else happens and in whatever order; every request for the key that begins there is answered with the
rows of that fetch, if it is answered at all.
-/
namespace Dashboard.DataSource.Cache

variable {backend : Backend} {statics : Dictionary Rows} {c d : Cache} {key : String} {since : Nat}
  {action : Action} {answered : List (Nat × Rows)}

/-- The fetches that were begun for a key, from a number on. -/
def begunFor (key : String) (since : Nat) (c : Cache) : List Nat :=
  (List.range c.fetches.length).filter fun id => decide (since ≤ id) && (c.keyOf? id == some key)

theorem begunFor_self (key : String) (c : Cache) : begunFor key c.fetches.length c = [] := by
  refine List.filter_eq_nil_iff.mpr fun id member => ?_
  have below := List.mem_range.mp member
  simp [not_le.mpr below]

/-- Fetches that go on are still those that were begun. -/
theorem begunFor_extends (grows : Extends c d) (count : d.fetches.length = c.fetches.length) :
    begunFor key since d = begunFor key since c := by
  unfold begunFor
  rw [count]
  refine List.filter_congr fun id member => ?_
  rw [grows.keyOf?_eq (List.mem_range.mp member)]

theorem begunFor_append {f : Fetch} (later : since ≤ c.fetches.length) (grows : Extends c d)
    (fetches : d.fetches = c.fetches ++ [f]) {other : String} (named : f.key = other) :
    begunFor key since d = begunFor key since c ++ if other = key then [c.fetches.length] else [] := by
  have last : d.keyOf? c.fetches.length = some other := by simp [keyOf?, fetches, named]
  have before : (List.range c.fetches.length).filter
      (fun id => decide (since ≤ id) && (d.keyOf? id == some key)) = begunFor key since c := by
    refine List.filter_congr fun id member => ?_
    rw [grows.keyOf?_eq (List.mem_range.mp member)]
  rw [begunFor, fetches, List.length_append, List.length_singleton, List.range_succ,
    List.filter_append, before]
  by_cases same : other = key <;> simp [last, later, same]

/-- Where a key stands when these fetches were begun for it: none, and nothing is known of the key; or
one, which is pending, or whose rows are cached. -/
inductive Shares (key : String) (c : Cache) : List Nat → Prop
  | unknown (uncached : Dictionary.find? c.cached key = none)
    (idle : Dictionary.find? c.pending key = none) : Shares key c []
  | pending {id} (held : Dictionary.find? c.pending key = some id) : Shares key c [id]
  | cached {id rows} (held : Dictionary.find? c.cached key = some rows)
    (fetched : c.rowsOf? id = some rows) : Shares key c [id]

namespace Shares

variable {ids : List Nat}

/-- A key stands where it stood if it is pending and cached as before. -/
theorem of_same (h : Shares key c ids) (grows : Extends c d)
    (pending : Dictionary.find? d.pending key = Dictionary.find? c.pending key)
    (cached : Dictionary.find? d.cached key = Dictionary.find? c.cached key) : Shares key d ids := by
  cases h with
  | unknown uncached idle => exact .unknown (cached.trans uncached) (pending.trans idle)
  | pending held => exact .pending (pending.trans held)
  | cached held fetched => exact .cached (cached.trans held) (grows.rows _ _ fetched)

theorem eq_of_pending (h : Shares key c ids) (sound : c.IsSound) {id : Nat}
    (held : Dictionary.find? c.pending key = some id) : ids = [id] := by
  cases h with
  | unknown uncached idle => cases idle.symm.trans held
  | pending other => rw [Option.some.inj (other.symm.trans held)]
  | cached other =>
    have apart := sound.apart key (by simp [Dictionary.contains, held])
    simp [Dictionary.contains, other] at apart

theorem eq_of_cached (h : Shares key c ids) (sound : c.IsSound) {rows : Rows}
    (held : Dictionary.find? c.cached key = some rows) :
    ∃ id, ids = [id] ∧ c.rowsOf? id = some rows := by
  cases h with
  | unknown uncached => cases uncached.symm.trans held
  | pending other =>
    have apart := sound.apart key (by simp [Dictionary.contains, other])
    simp [Dictionary.contains, held] at apart
  | cached other fetched =>
    rw [Option.some.inj (other.symm.trans held)] at fetched
    exact ⟨_, rfl, fetched⟩

theorem eq_nil (h : Shares key c ids) (uncached : Dictionary.find? c.cached key = none)
    (idle : Dictionary.find? c.pending key = none) : ids = [] := by
  cases h with
  | unknown => rfl
  | pending held => cases idle.symm.trans held
  | cached held => cases uncached.symm.trans held

end Shares

theorem Shares.length_le {ids : List Nat} (h : Shares key c ids) : ids.length ≤ 1 := by
  cases h <;> simp

/-- An action that spares the key. -/
def Spares (key : String) (action : Action) : Prop :=
  ∀ document, action = .invalidate document → covers document key = false

/-- One action keeps a key shared, and begins no second fetch for it. -/
theorem Shares.happens (shares : Shares key c (begunFor key since c)) (sound : c.IsSound)
    (later : since ≤ c.fetches.length) (spares : Spares key action)
    (step : Happens statics c action d answered) :
    Shares key d (begunFor key since d) ∧
      ∀ id, begunFor key since c = [id] → begunFor key since d = [id] := by
  have grows := step.extends
  have quiet (count : d.fetches.length = c.fetches.length)
      (kept : Shares key d (begunFor key since c)) : Shares key d (begunFor key since d) ∧
        ∀ id, begunFor key since c = [id] → begunFor key since d = [id] := by
    rw [begunFor_extends grows count]
    exact ⟨kept, fun _ => id⟩
  cases step with
  | given | hit | joined | dropped => exact quiet rfl (shares.of_same grows rfl rfl)
  | aged ages =>
    exact quiet ages.count (shares.of_same grows (by rw [ages.pending]) (by rw [ages.cached]))
  | @begun source document dynamic missed alone =>
    have named : Fetch.key ⟨source, document, .idle⟩ = cacheKey source document := rfl
    have begins : begunFor key since _ = _ := begunFor_append later grows rfl named
    by_cases same : cacheKey source document = key
    · obtain rfl := same
      have none := shares.eq_nil missed alone
      rw [begins, none, if_pos rfl, List.nil_append]
      refine ⟨.pending ?_, fun id other => by cases other⟩
      rw [Dictionary.find?_insert, if_pos rfl]
    · rw [begins, if_neg same, List.append_nil]
      refine ⟨shares.of_same grows ?_ rfl, fun _ => id⟩
      rw [Dictionary.find?_insert, if_neg (Ne.symm same)]
  | @taken request rows waits found =>
    unfold keep at grows quiet ⊢
    split_ifs at grows quiet ⊢ with current
    · refine quiet rfl ?_
      by_cases same : request.key = key
      · obtain rfl := same
        rw [shares.eq_of_pending sound current]
        refine .cached ?_ found
        rw [Dictionary.find?_insert, if_pos rfl]
      · refine shares.of_same grows ?_ ?_
        · rw [Dictionary.find?_erase, if_neg (Ne.symm same)]
        · rw [Dictionary.find?_insert, if_neg (Ne.symm same)]
    · exact quiet rfl (shares.of_same grows rfl rfl)
  | @invalidated document =>
    have kept := spares document rfl
    refine quiet rfl (shares.of_same grows ?_ ?_)
    · rw [find?_pending_invalidate, kept]
      rfl
    · rw [find?_cached_invalidate, kept]
      rfl

theorem Happens.count_le (step : Happens statics c action d answered) :
    c.fetches.length ≤ d.fetches.length := by
  cases step with
  | given | hit | joined | dropped | invalidated => exact le_rfl
  | begun => simp
  | aged ages => exact ages.count.ge
  | taken =>
    unfold keep
    split_ifs <;> exact le_rfl

/-- Actions that spare a key keep it shared. -/
theorem Shares.run (shares : Shares key c (begunFor key since c)) (sound : c.IsSound)
    (later : since ≤ c.fetches.length) {actions : List Action}
    (spares : ∀ action ∈ actions, Spares key action) :
    Shares key (Cache.run backend statics c actions).1
        (begunFor key since (Cache.run backend statics c actions).1) ∧
      since ≤ (Cache.run backend statics c actions).1.fetches.length ∧
      ∀ id, begunFor key since c = [id] →
        begunFor key since (Cache.run backend statics c actions).1 = [id] := by
  induction actions generalizing c with
  | nil => exact ⟨shares, later, fun _ => id⟩
  | cons first more ih =>
    obtain ⟨here, others⟩ := List.forall_mem_cons.mp spares
    have step := happens_act backend statics c first
    obtain ⟨kept, same⟩ := shares.happens sound later here step
    obtain ⟨last, count, stays⟩ := ih kept (sound.happens step) (later.trans step.count_le) others
    exact ⟨last, count, fun id one => stays id (same id one)⟩

/-! A request, and the fetch that it waits for. -/

/-- A request that has its number, and waits for a certain fetch if it waits. -/
structure Awaits (number id : Nat) (c : Cache) : Prop where
  given : number < c.requests
  bound : ∀ r ∈ c.waiting, r.number = number → r.fetch = id

theorem Awaits.happens {number id : Nat} (h : Awaits number id c)
    (step : Happens statics c action d answered) :
    Awaits number id d ∧ ∀ rows, (number, rows) ∈ answered → c.rowsOf? id = some rows := by
  have joins (other : String) (fetch : Nat) : ∀ r ∈ c.waiting ++ [⟨c.requests, other, fetch⟩],
      r.number = number → r.fetch = id := by
    refine List.forall_mem_append.mpr ⟨h.bound, List.forall_mem_singleton.mpr fun same => ?_⟩
    exact absurd same h.given.ne'
  have fewer (keeps : Request → Bool) : ∀ r ∈ c.waiting.filter keeps,
      r.number = number → r.fetch = id :=
    fun r member => h.bound r (List.mem_filter.mp member).1
  cases step with
  | given | hit =>
    refine ⟨⟨Nat.lt_succ_of_lt h.given, h.bound⟩, fun rows member => ?_⟩
    have same : number = c.requests := congrArg Prod.fst (List.mem_singleton.mp member)
    exact absurd same h.given.ne
  | joined | begun => exact ⟨⟨Nat.lt_succ_of_lt h.given, joins _ _⟩, by simp⟩
  | aged ages => exact ⟨⟨ages.requests ▸ h.given, ages.waiting ▸ h.bound⟩, by simp⟩
  | @taken request rows waits found =>
    have count : (c.keep request rows).requests = c.requests := by
      unfold keep
      split_ifs <;> rfl
    refine ⟨⟨count.symm ▸ h.given, fewer _⟩, fun other member => ?_⟩
    obtain ⟨same, rfl⟩ := Prod.mk.inj (List.mem_singleton.mp member)
    rw [← h.bound request waits same.symm]
    exact found
  | dropped => exact ⟨⟨h.given, fewer _⟩, by simp⟩
  | invalidated => exact ⟨⟨h.given, h.bound⟩, by simp⟩

theorem extends_run (backend : Backend) (statics : Dictionary Rows) (c : Cache)
    (actions : List Action) : Extends c (Cache.run backend statics c actions).1 := by
  induction actions generalizing c with
  | nil => exact .of_fetches rfl
  | cons first more ih => exact (happens_act backend statics c first).extends.trans (ih _)

/-- A request is answered with the rows of the fetch that it waits for. -/
theorem Awaits.run {number id : Nat} (h : Awaits number id c) (actions : List Action) :
    ∀ rows, (number, rows) ∈ (Cache.run backend statics c actions).2 →
      (Cache.run backend statics c actions).1.rowsOf? id = some rows := by
  induction actions generalizing c with
  | nil => simp
  | cons first more ih =>
    have step := happens_act backend statics c first
    obtain ⟨next, here⟩ := h.happens step
    intro rows member
    rcases List.mem_append.mp member with now | later
    · exact (extends_run backend statics c (first :: more)).rows id rows (here rows now)
    · exact ih next rows later

/-- A request for a shared key gets the rows of the one fetch, at once or by waiting for it. -/
theorem Shares.get {source : String} {document : Option String}
    (shares : Shares (cacheKey source document) c (begunFor (cacheKey source document) since c))
    (sound : c.IsSound) (later : since ≤ c.fetches.length)
    (dynamic : Dictionary.find? statics source = none)
    (step : Happens statics c (.get source document) d answered) :
    ∃ id, begunFor (cacheKey source document) since d = [id] ∧ Awaits c.requests id d ∧
      ∀ rows, (c.requests, rows) ∈ answered → d.rowsOf? id = some rows := by
  have grows := step.extends
  have others : ∀ r ∈ c.waiting, r.number ≠ c.requests :=
    fun r member => (sound.awaited r member).1.ne
  cases step with
  | given found => cases dynamic.symm.trans found
  | @hit _ _ rows _ found =>
    obtain ⟨id, one, fetched⟩ := shares.eq_of_cached sound found
    refine ⟨id, (begunFor_extends grows rfl).trans one, ⟨Nat.lt_succ_self _, fun r member same => ?_⟩,
      fun other member => ?_⟩
    · exact absurd same (others r member)
    · obtain ⟨-, rfl⟩ := Prod.mk.inj (List.mem_singleton.mp member)
      exact fetched
  | @joined _ _ id _ missed found =>
    have one := shares.eq_of_pending sound found
    refine ⟨id, (begunFor_extends grows rfl).trans one, ⟨Nat.lt_succ_self _, ?_⟩, by simp⟩
    exact List.forall_mem_append.mpr ⟨fun r member same => absurd same (others r member), by simp⟩
  | begun _ missed alone =>
    have none := shares.eq_nil missed alone
    have named : Fetch.key ⟨source, document, .idle⟩ = cacheKey source document := rfl
    have begins : begunFor (cacheKey source document) since _ = _ :=
      begunFor_append later grows rfl named
    rw [none, if_pos rfl, List.nil_append] at begins
    refine ⟨_, begins, ⟨Nat.lt_succ_self _, ?_⟩, by simp⟩
    exact List.forall_mem_append.mpr ⟨fun r member same => absurd same (others r member), by simp⟩
  | aged _ other => exact absurd rfl (other source document)

/-- A request for a shared key, and everything behind it. -/
theorem Shares.answers {source : String} {document : Option String}
    (shares : Shares (cacheKey source document) c (begunFor (cacheKey source document) since c))
    (sound : c.IsSound) (later : since ≤ c.fetches.length)
    (dynamic : Dictionary.find? statics source = none) {rest : List Action} (after : List Action)
    (spares : ∀ action ∈ rest, Spares (cacheKey source document) action) :
    ∃ id, begunFor (cacheKey source document) since
        (Cache.run backend statics c (.get source document :: rest)).1 = [id] ∧
      ∀ rows, (c.requests, rows) ∈
          (Cache.run backend statics c (.get source document :: (rest ++ after))).2 →
        (Cache.run backend statics c (.get source document :: (rest ++ after))).1.rowsOf? id =
          some rows := by
  have step := happens_act backend statics c (.get source document)
  obtain ⟨id, one, awaits, here⟩ := shares.get sound later dynamic step
  have kept := (shares.happens sound later (fun _ other => by cases other) step).1
  obtain ⟨-, -, stays⟩ :=
    @Shares.run backend statics _ _ _ kept (sound.happens step) (later.trans step.count_le) rest spares
  refine ⟨id, stays id one, fun rows member => ?_⟩
  rcases List.mem_append.mp member with now | more
  · exact (extends_run backend statics _ (rest ++ after)).rows id rows (here rows now)
  · exact awaits.run (rest ++ after) rows more

/-- Actions after which nothing is known of a key: none at all, or an invalidation of it the last. -/
def Opens (key : String) (actions : List Action) : Prop :=
  actions = [] ∨ ∃ earlier document,
    actions = earlier ++ [.invalidate document] ∧ covers document key = true

theorem Opens.shares {before : List Action} (opens : Opens key before) :
    Shares key (run backend statics {} before).1 [] := by
  rcases opens with rfl | ⟨earlier, document, rfl, covered⟩
  · exact .unknown rfl rfl
  · rw [run_append]
    refine .unknown ?_ ?_
    · exact (find?_cached_invalidate _ document key).trans (if_pos covered)
    · exact (find?_pending_invalidate _ document key).trans (if_pos covered)

/-- Behind such actions a key stays shared as long as it is spared. -/
theorem Opens.run {before window : List Action} (opens : Opens key before)
    (spares : ∀ action ∈ window, Spares key action) :
    Shares key (Cache.run backend statics {} (before ++ window)).1
        (begunFor key (Cache.run backend statics {} before).1.fetches.length
          (Cache.run backend statics {} (before ++ window)).1) ∧
      (Cache.run backend statics {} before).1.fetches.length ≤
        (Cache.run backend statics {} (before ++ window)).1.fetches.length := by
  have start : Shares key (Cache.run backend statics {} before).1
      (begunFor key (Cache.run backend statics {} before).1.fetches.length
        (Cache.run backend statics {} before).1) := by
    rw [begunFor_self]
    exact opens.shares
  have sound : (Cache.run backend statics {} before).1.IsSound := isSound_empty.run before
  obtain ⟨last, count, -⟩ := @Shares.run backend statics _ _ _ start sound le_rfl window spares
  rw [← run_append_fst] at last count
  exact ⟨last, count⟩

end Dashboard.DataSource.Cache
