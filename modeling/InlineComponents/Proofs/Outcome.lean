/-!
# Computations that may fail

When a computation in two parts succeeds, and how it fails.
-/

namespace InlineComponents

/-- A computation in two parts succeeds when both parts do. -/
theorem bind_eq_ok_iff {ε α β : Type} {first : Except ε α} {next : α → Except ε β} {result : β} :
    (first >>= next) = .ok result ↔ ∃ value, first = .ok value ∧ next value = .ok result := by
  cases first with
  | error e =>
    constructor
    · intro h
      contradiction
    · rintro ⟨value, h, -⟩
      contradiction
  | ok value =>
    constructor
    · intro h
      exact ⟨value, rfl, h⟩
    · rintro ⟨other, h, hnext⟩
      obtain rfl := Except.ok.inj h
      exact hnext

/-- A computation in two parts fails in the first, or in the second after the first succeeded. -/
theorem bind_eq_error_iff {ε α β : Type} {first : Except ε α} {next : α → Except ε β} {e : ε} :
    (first >>= next) = .error e ↔
      first = .error e ∨ ∃ value, first = .ok value ∧ next value = .error e := by
  cases first with
  | error other =>
    constructor
    · intro h
      obtain rfl := Except.error.inj h
      exact Or.inl rfl
    · rintro (h | ⟨value, h, -⟩)
      · obtain rfl := Except.error.inj h
        rfl
      · contradiction
  | ok value =>
    constructor
    · intro h
      exact Or.inr ⟨value, rfl, h⟩
    · rintro (h | ⟨other, h, hnext⟩)
      · contradiction
      · obtain rfl := Except.ok.inj h
        exact hnext

/-- A success stays one whatever its failures are reported as. -/
theorem mapError_ok {ε ε' α : Type} (f : ε → ε') (value : α) :
    (Except.ok value).mapError f = .ok value := rfl

/-- A failure is reported under another name. -/
theorem mapError_error {ε ε' α : Type} (f : ε → ε') (e : ε) :
    (Except.error e : Except ε α).mapError f = .error (f e) := rfl

/-- A mapped result fails when the result does. -/
theorem map_eq_error_iff {ε α β : Type} {computation : Except ε α} {f : α → β} {e : ε} :
    computation.map f = .error e ↔ computation = .error e := by
  cases computation <;> simp [Except.map]

/-- A computation of whose result something is seen succeeds. -/
theorem exists_of_map_toOption {ε α β : Type} {computation : Except ε α} {f : α → β} {seen : β}
    (h : computation.toOption.map f = some seen) :
    ∃ value, computation = .ok value ∧ f value = seen := by
  cases computation with
  | error e => contradiction
  | ok value => exact ⟨value, rfl, Option.some.inj h⟩

end InlineComponents
