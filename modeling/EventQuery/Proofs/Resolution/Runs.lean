import EventQuery.Compile.Resolve

set_option autoImplicit false

/-! Runs of resolutions. A resolution that yields a value is opened step by step: the lemmas
below take every construct that resolutions are built from apart into what its parts yield. -/

namespace EventQuery.Resolution

variable {α β : Type}

/-- What a resolution ends with when it starts from some progress. -/
def outcome (action : Resolution α) (before : Progress) : Except CompileFault α × Progress :=
  action.run.run before

/-- The resolution succeeds from some progress, with a value and the progress afterwards. -/
def Yields (action : Resolution α) (before : Progress) (value : α) (after : Progress) : Prop :=
  action.outcome before = (.ok value, after)

theorem outcome_bind (action : Resolution α) (next : α → Resolution β) (before : Progress) :
    outcome (action >>= next) before =
      match action.outcome before with
      | (.ok value, between) => (next value).outcome between
      | (.error fault, between) => (.error fault, between) := by
  simp only [outcome, ExceptT.run_bind, StateT.run_bind]
  cases action.run.run before with
  | mk result between =>
      cases result with
      | ok value => rfl
      | error fault => rfl

theorem outcome_get_bind (next : Progress → Resolution β) (before : Progress) :
    outcome (get >>= next) before = (next before).outcome before :=
  rfl

theorem yields_bind_iff {action : Resolution α} {next : α → Resolution β}
    {before after : Progress} {value : β} :
    Yields (action >>= next) before value after ↔
      ∃ first between, Yields action before first between ∧
        Yields (next first) between value after := by
  unfold Yields
  rw [outcome_bind]
  cases action.outcome before with
  | mk result between =>
      cases result with
      | ok first =>
          constructor
          · intro run
            exact ⟨first, between, rfl, run⟩
          · rintro ⟨_, _, same, run⟩
            cases same
            exact run
      | error fault => simp

theorem yields_pure_iff {value result : α} {before after : Progress} :
    Yields (pure value) before result after ↔ result = value ∧ after = before := by
  constructor
  · intro run
    cases run
    exact ⟨rfl, rfl⟩
  · rintro ⟨rfl, rfl⟩
    rfl

theorem not_yields_throw {fault : CompileFault} {result : α} {before after : Progress} :
    ¬ Yields (throw fault) before result after := by
  intro run
  cases run

theorem not_yields_refuse {error : ValidationError} {position : Option Position} {result : α}
    {before after : Progress} : ¬ Yields (refuse error position) before result after :=
  not_yields_throw

theorem yields_get_bind_iff {next : Progress → Resolution β} {before after : Progress}
    {value : β} :
    Yields (get >>= next) before value after ↔ Yields (next before) before value after :=
  Iff.rfl

theorem yields_set_bind_iff {progress before after : Progress} {next : PUnit → Resolution β}
    {value : β} :
    Yields (set progress >>= next) before value after ↔
      Yields (next ()) progress value after :=
  Iff.rfl

theorem yields_modifySymbols_bind_iff {change : SymbolContext → SymbolContext}
    {before after : Progress} {next : Unit → Resolution β} {value : β} :
    Yields (modifySymbols change >>= next) before value after ↔
      Yields (next ()) { before with symbols := change before.symbols } value after :=
  Iff.rfl

theorem yields_ofChecked_iff {checked : Except LocatedError α} {result : α}
    {before after : Progress} :
    Yields (ofChecked checked) before result after ↔ checked = .ok result ∧ after = before := by
  cases checked with
  | ok value => simp only [ofChecked, yields_pure_iff, Except.ok.injEq, eq_comm]
  | error failure => simp [ofChecked, not_yields_throw]

theorem yields_map_iff {action : Resolution α} {change : α → β} {result : β}
    {before after : Progress} :
    Yields (change <$> action) before result after ↔
      ∃ value, Yields action before value after ∧ result = change value := by
  rw [map_eq_pure_bind]
  simp only [yields_bind_iff, yields_pure_iff]
  constructor
  · rintro ⟨value, _, run, rfl, rfl⟩
    exact ⟨value, run, rfl⟩
  · rintro ⟨value, run, rfl⟩
    exact ⟨value, after, run, rfl, rfl⟩

theorem yields_mapM_nil_iff {action : α → Resolution β} {results : List β}
    {before after : Progress} :
    Yields ([].mapM action) before results after ↔ results = [] ∧ after = before := by
  rw [List.mapM_nil, yields_pure_iff]

theorem yields_mapM_cons_iff {action : α → Resolution β} {item : α} {items : List α}
    {results : List β} {before after : Progress} :
    Yields ((item :: items).mapM action) before results after ↔
      ∃ first between rest, Yields (action item) before first between ∧
        Yields (items.mapM action) between rest after ∧ results = first :: rest := by
  rw [List.mapM_cons]
  simp only [yields_bind_iff, yields_pure_iff]
  constructor
  · rintro ⟨first, between, head, rest, _, tail, rfl, rfl⟩
    exact ⟨first, between, rest, head, tail, rfl⟩
  · rintro ⟨first, between, rest, head, tail, rfl⟩
    exact ⟨first, between, head, rest, after, tail, rfl, rfl⟩

theorem yields_mapM_append_iff {action : α → Resolution β} {items others : List α}
    {results : List β} {before after : Progress} :
    Yields ((items ++ others).mapM action) before results after ↔
      ∃ first between rest, Yields (items.mapM action) before first between ∧
        Yields (others.mapM action) between rest after ∧ results = first ++ rest := by
  rw [List.mapM_append]
  simp only [yields_bind_iff, yields_pure_iff]
  constructor
  · rintro ⟨first, between, head, rest, _, tail, rfl, rfl⟩
    exact ⟨first, between, rest, head, tail, rfl⟩
  · rintro ⟨first, between, rest, head, tail, rfl⟩
    exact ⟨first, between, head, rest, after, tail, rfl, rfl⟩

theorem Yields.length_eq {action : α → Resolution β} {items : List α} {results : List β}
    {before after : Progress} (run : Yields (items.mapM action) before results after) :
    results.length = items.length := by
  induction items generalizing before results with
  | nil =>
      obtain ⟨rfl, _⟩ := yields_mapM_nil_iff.mp run
      rfl
  | cons item items ih =>
      obtain ⟨first, between, rest, _, tail, rfl⟩ := yields_mapM_cons_iff.mp run
      rw [List.length_cons, List.length_cons, ih tail]

theorem yields_optionMapM_iff {action : α → Resolution β} {item : Option α}
    {result : Option β} {before after : Progress} :
    Yields (item.mapM action) before result after ↔
      Yields (item.toList.mapM action) before result.toList after := by
  cases item with
  | none =>
      rw [Option.toList_none, yields_mapM_nil_iff, Option.toList_eq_nil_iff]
      exact yields_pure_iff
  | some present =>
      rw [Option.toList_some, yields_mapM_cons_iff]
      simp only [Option.mapM_some, yields_map_iff, yields_mapM_nil_iff]
      constructor
      · rintro ⟨first, head, rfl⟩
        exact ⟨first, after, [], head, ⟨rfl, rfl⟩, rfl⟩
      · rintro ⟨first, _, rest, head, ⟨rfl, rfl⟩, same⟩
        exact ⟨first, head, Option.toList_eq_singleton_iff.mp same⟩

/-- The two resolutions leave the same progress behind, and one fails exactly if the other does,
for the same reason. -/
def EndsLike (action : Resolution α) (other : Resolution β) : Prop :=
  ∀ before, (action.outcome before).2 = (other.outcome before).2 ∧
    ∀ fault, (action.outcome before).1 = .error fault ↔ (other.outcome before).1 = .error fault

theorem EndsLike.pure (value : α) (result : β) :
    EndsLike (pure value : Resolution α) (pure result : Resolution β) := by
  intro before
  refine ⟨rfl, fun fault => iff_of_false ?_ ?_⟩
  · intro failed
    cases failed
  · intro failed
    cases failed

theorem EndsLike.bind {γ : Type} {action : Resolution γ} {next : γ → Resolution α}
    {other : γ → Resolution β} (rest : ∀ value, EndsLike (next value) (other value)) :
    EndsLike (action >>= next) (action >>= other) := by
  intro before
  rw [outcome_bind, outcome_bind]
  cases action.outcome before with
  | mk result between =>
      cases result with
      | ok value => exact rest value between
      | error fault => simp

end EventQuery.Resolution
