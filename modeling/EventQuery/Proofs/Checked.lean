set_option autoImplicit false

/-! Checks that succeed, taken apart into the checks they are built from. -/

namespace EventQuery.Checked

variable {ε α β : Type}

theorem bind_eq_ok_iff {check : Except ε α} {next : α → Except ε β} {result : β} :
    check >>= next = .ok result ↔ ∃ value, check = .ok value ∧ next value = .ok result := by
  cases check with
  | ok value =>
      constructor
      · intro run
        exact ⟨value, rfl, run⟩
      · rintro ⟨_, same, run⟩
        cases same
        exact run
  | error failure =>
      constructor
      · intro run
        cases run
      · rintro ⟨_, same, _⟩
        cases same

theorem pure_eq_ok_iff {value result : α} :
    (pure value : Except ε α) = .ok result ↔ result = value := by
  constructor
  · intro same
    cases same
    rfl
  · rintro rfl
    rfl

theorem map_eq_ok_iff {check : Except ε α} {change : α → β} {result : β} :
    check.map change = .ok result ↔ ∃ value, check = .ok value ∧ result = change value := by
  cases check with
  | ok value => simp [Except.map, eq_comm]
  | error failure => simp [Except.map]

theorem map_eq_error_iff {check : Except ε α} {change : α → β} {failure : ε} :
    check.map change = .error failure ↔ check = .error failure := by
  cases check with
  | ok value => simp [Except.map]
  | error found => simp [Except.map]

theorem toOption_bind (check : Except ε α) (next : α → Except ε β) :
    (check >>= next).toOption = check.toOption.bind (fun value => (next value).toOption) := by
  cases check <;> rfl

/-- If the check fails, then with a failure of the kind. -/
def FailsOnly (kind : ε → Prop) (check : Except ε α) : Prop :=
  ∀ failure, check = .error failure → kind failure

namespace FailsOnly

variable {kind : ε → Prop}

theorem ok (value : α) : FailsOnly kind (.ok value) := by
  intro failure failed
  cases failed

theorem error {failure : ε} (holds : kind failure) :
    FailsOnly kind (.error failure : Except ε α) := by
  intro other failed
  cases failed
  exact holds

theorem bind {check : Except ε α} {next : α → Except ε β} (first : FailsOnly kind check)
    (rest : ∀ value, FailsOnly kind (next value)) : FailsOnly kind (check >>= next) := by
  intro failure failed
  cases check with
  | ok value => exact rest value failure failed
  | error found =>
      cases failed
      exact first failure rfl

theorem map {check : Except ε α} (first : FailsOnly kind check) (change : α → β) :
    FailsOnly kind (check.map change) :=
  fun failure failed => first failure (map_eq_error_iff.mp failed)

end FailsOnly

end EventQuery.Checked
