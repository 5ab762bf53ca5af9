import Dashboard.Failure

/-!
Outcomes that may be errors: when a sequence of steps succeeds, every step has.
-/
namespace Dashboard

variable {ε ε' α β : Type}

theorem bind_eq_ok {x : Except ε α} {f : α → Except ε β} {b : β} :
    x >>= f = .ok b ↔ ∃ a, x = .ok a ∧ f a = .ok b := by
  cases x with
  | error e =>
    constructor
    · intro h
      cases h
    · rintro ⟨a, h, -⟩
      cases h
  | ok a =>
    constructor
    · intro h
      exact ⟨a, rfl, h⟩
    · rintro ⟨c, same, h⟩
      obtain rfl := Except.ok.inj same
      exact h

theorem map_eq_ok {x : Except ε α} {f : α → β} {b : β} :
    x.map f = .ok b ↔ ∃ a, x = .ok a ∧ f a = b := by
  cases x <;> simp [Except.map]

theorem map_eq_error {x : Except ε α} {f : α → β} {e : ε} : x.map f = .error e ↔ x = .error e := by
  cases x <;> simp [Except.map]

theorem mapError_ok (f : ε → ε') (a : α) :
    Except.mapError f (.ok a : Except ε α) = .ok a := rfl

theorem mapError_error (f : ε → ε') (e : ε) :
    Except.mapError f (.error e : Except ε α) = .error (f e) := rfl

theorem mapError_eq_ok {x : Except ε α} {f : ε → ε'} {a : α} :
    x.mapError f = .ok a ↔ x = .ok a := by
  cases x <;> simp [mapError_ok, mapError_error]

theorem mapError_bind (x : Except ε α) (f : α → Except ε β) (g : ε → ε') :
    (x >>= f).mapError g = x.mapError g >>= fun a => (f a).mapError g := by
  cases x <;> rfl

theorem toOption_eq_some {x : Except ε α} {a : α} : x.toOption = some a ↔ x = .ok a := by
  cases x <;> simp [Except.toOption]

theorem bind_eq_error {x : Except ε α} {f : α → Except ε β} {e : ε} :
    x >>= f = .error e ↔ x = .error e ∨ ∃ a, x = .ok a ∧ f a = .error e := by
  cases x with
  | error e' =>
    constructor
    · intro h
      exact Or.inl (congrArg Except.error (Except.error.inj h))
    · rintro (same | ⟨_, none, -⟩)
      · exact congrArg Except.error (Except.error.inj same)
      · cases none
  | ok a =>
    constructor
    · intro h
      exact Or.inr ⟨a, rfl, h⟩
    · rintro (none | ⟨_, same, h⟩)
      · cases none
      · cases same
        exact h

theorem mapError_eq_error {x : Except ε α} {f : ε → ε'} {e : ε'} :
    x.mapError f = .error e ↔ ∃ e', x = .error e' ∧ f e' = e := by
  cases x <;> simp [mapError_ok, mapError_error]

theorem mapError_ne_error {f : ε → ε'} {e : ε'} (never : ∀ e', f e' ≠ e) (x : Except ε α) :
    x.mapError f ≠ .error e := by
  cases x with
  | ok a =>
    intro same
    cases same
  | error e' =>
    intro same
    exact never e' (Except.error.inj same)

/-- Steps in sequence fail with nothing that neither fails with. -/
theorem bind_ne_error {x : Except ε α} {f : α → Except ε β} {e : ε} (first : x ≠ .error e)
    (second : ∀ a, f a ≠ .error e) : x >>= f ≠ .error e := by
  cases x with
  | ok a => exact second a
  | error e' =>
    intro same
    exact first (congrArg Except.error (Except.error.inj same))

theorem foldlM_ne_error {step : β → α → Except ε β} {e : ε} {as : List α}
    (each : ∀ a ∈ as, ∀ b, step b a ≠ .error e) (b : β) : as.foldlM step b ≠ .error e := by
  induction as generalizing b with
  | nil =>
    intro same
    cases same
  | cons first more ih =>
    obtain ⟨here, later⟩ := List.forall_mem_cons.mp each
    rw [List.foldlM_cons]
    exact bind_ne_error (here b) (ih later)

/-- What every step preserves holds in the end, if it holds in the beginning. -/
theorem foldlM_induction (holds : β → Prop) {step : β → α → Except ε β} {as : List α} {b b' : β}
    (h : as.foldlM step b = .ok b') (first : holds b)
    (each : ∀ a ∈ as, ∀ b b', step b a = .ok b' → holds b → holds b') : holds b' := by
  induction as generalizing b with
  | nil =>
    cases h
    exact first
  | cons a more ih =>
    obtain ⟨here, later⟩ := List.forall_mem_cons.mp each
    rw [List.foldlM_cons] at h
    obtain ⟨next, made, rest⟩ := bind_eq_ok.mp h
    exact ih rest (here b next made first) later

/-! Steps that carry a state. -/

variable {σ : Type}

theorem run_bind (p : StateT σ (Except ε) α) (f : α → StateT σ (Except ε) β) (s : σ) :
    (p >>= f) s = p s >>= fun found => f found.1 found.2 := rfl

theorem run_pure (a : α) (s : σ) : (pure a : StateT σ (Except ε) α) s = .ok (a, s) := rfl

theorem ok_bind (a : α) (f : α → Except ε β) : ((.ok a : Except ε α) >>= f) = f a := rfl

theorem run_bind_eq_ok {p : StateT σ (Except ε) α} {f : α → StateT σ (Except ε) β} {s s' : σ}
    {b : β} : (p >>= f) s = .ok (b, s') ↔ ∃ a t, p s = .ok (a, t) ∧ f a t = .ok (b, s') := by
  rw [run_bind, bind_eq_ok]
  exact ⟨fun ⟨⟨a, t⟩, h⟩ => ⟨a, t, h⟩, fun ⟨a, t, h⟩ => ⟨⟨a, t⟩, h⟩⟩

end Dashboard
