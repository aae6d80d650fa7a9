/-!
# Restyle.Proofs.Success

Computations that may fail.

What it takes for a computation that is put together from others to succeed, or to fail.  Readers of
text, evaluation and runs are all put together in these ways.

* `bind_eq_ok`, `map_eq_ok`, `mapError_eq_ok` — what a success says about the parts;
* `bind_eq_error`, `map_eq_error`, `mapError_eq_error` — what a failure says about them;
* `mem_of_mapM_eq_ok`, `exists_mapM_eq_ok` — what comes of a list of computations, and when.
-/

namespace Restyle

variable {ε ε' α β : Type}

/-- One computation after another succeeds if both do. -/
theorem bind_eq_ok {x : Except ε α} {f : α → Except ε β} {b : β} :
    (x >>= f) = .ok b ↔ ∃ a, x = .ok a ∧ f a = .ok b := by
  cases x with
  | error error =>
      constructor
      · nofun
      · rintro ⟨a, h, -⟩
        cases h
  | ok a =>
      constructor
      · intro h
        exact ⟨a, rfl, h⟩
      · rintro ⟨a', h, hb⟩
        obtain rfl := Except.ok.inj h
        exact hb

/-- One computation after another fails if the first one does, or the second one after it. -/
theorem bind_eq_error {x : Except ε α} {f : α → Except ε β} {error : ε} :
    (x >>= f) = .error error ↔ x = .error error ∨ ∃ a, x = .ok a ∧ f a = .error error := by
  cases x with
  | error error' =>
      constructor
      · intro h
        obtain rfl := Except.error.inj h
        exact .inl rfl
      · rintro (h | ⟨a, h, -⟩)
        · obtain rfl := Except.error.inj h
          rfl
        · cases h
  | ok a =>
      constructor
      · intro h
        exact .inr ⟨a, rfl, h⟩
      · rintro (h | ⟨a', h, herror⟩)
        · cases h
        · obtain rfl := Except.ok.inj h
          exact herror

theorem map_eq_ok {x : Except ε α} {f : α → β} {b : β} :
    x.map f = .ok b ↔ ∃ a, x = .ok a ∧ f a = b := by
  cases x with
  | error error =>
      constructor
      · nofun
      · rintro ⟨a, h, -⟩
        cases h
  | ok a =>
      constructor
      · intro h
        exact ⟨a, rfl, Except.ok.inj h⟩
      · rintro ⟨a', h, rfl⟩
        obtain rfl := Except.ok.inj h
        rfl

/-- A change of the result leaves a failure as it is. -/
theorem map_eq_error {x : Except ε α} {f : α → β} {error : ε} :
    x.map f = .error error ↔ x = .error error := by
  cases x with
  | error error' =>
      constructor
      · intro h
        obtain rfl := Except.error.inj h
        rfl
      · intro h
        obtain rfl := Except.error.inj h
        rfl
  | ok a => exact ⟨nofun, nofun⟩

/-- A change of the failure leaves a result as it is. -/
theorem mapError_eq_ok {x : Except ε α} {f : ε → ε'} {a : α} :
    x.mapError f = .ok a ↔ x = .ok a := by
  cases x with
  | error error => exact ⟨nofun, nofun⟩
  | ok a' =>
      constructor
      · intro h
        obtain rfl := Except.ok.inj h
        rfl
      · intro h
        obtain rfl := Except.ok.inj h
        rfl

theorem mapError_eq_error {x : Except ε α} {f : ε → ε'} {error : ε'} :
    x.mapError f = .error error ↔ ∃ cause, x = .error cause ∧ f cause = error := by
  cases x with
  | error cause =>
      constructor
      · intro h
        exact ⟨cause, rfl, Except.error.inj h⟩
      · rintro ⟨cause', h, rfl⟩
        obtain rfl := Except.error.inj h
        rfl
  | ok a =>
      constructor
      · nofun
      · rintro ⟨cause, h, -⟩
        cases h

theorem toOption_eq_some {x : Except ε α} {a : α} : x.toOption = some a ↔ x = .ok a := by
  cases x with
  | error error => exact ⟨nofun, nofun⟩
  | ok a' =>
      constructor
      · intro h
        obtain rfl := Option.some.inj h
        rfl
      · intro h
        obtain rfl := Except.ok.inj h
        rfl

/-- What comes of a list of computations that succeed. -/
theorem mem_of_mapM_eq_ok {f : α → Except ε β} {as : List α} {bs : List β}
    (h : as.mapM f = .ok bs) {b : β} : b ∈ bs ↔ ∃ a ∈ as, f a = .ok b := by
  induction as generalizing bs with
  | nil =>
      obtain rfl := Except.ok.inj h
      simp
  | cons a as ih =>
      rw [List.mapM_cons] at h
      obtain ⟨first, hfirst, h⟩ := bind_eq_ok.1 h
      obtain ⟨rest, hrest, h⟩ := bind_eq_ok.1 h
      obtain rfl := Except.ok.inj h
      rw [List.mem_cons, ih hrest]
      simp [hfirst, eq_comm]

/-- A list of computations succeeds if each of them does. -/
theorem exists_mapM_eq_ok {f : α → Except ε β} {as : List α} :
    (∃ bs, as.mapM f = .ok bs) ↔ ∀ a ∈ as, ∃ b, f a = .ok b := by
  induction as with
  | nil => exact ⟨fun _ => List.forall_mem_nil _, fun _ => ⟨[], rfl⟩⟩
  | cons a as ih =>
      rw [List.forall_mem_cons, ← ih]
      constructor
      · rintro ⟨bs, h⟩
        rw [List.mapM_cons] at h
        obtain ⟨b, hb, h⟩ := bind_eq_ok.1 h
        obtain ⟨others, hothers, -⟩ := bind_eq_ok.1 h
        exact ⟨⟨b, hb⟩, others, hothers⟩
      · rintro ⟨⟨b, hb⟩, others, hothers⟩
        refine ⟨b :: others, ?_⟩
        rw [List.mapM_cons, hb, hothers]
        rfl

end Restyle
