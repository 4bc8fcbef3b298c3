import EventQuery.Proofs.Resolution.Fuel
import EventQuery.Proofs.Resolution.Conclusion

set_option autoImplicit false

/-! Where a run runs out of fuel. A compound resolution does so in one of its parts, after the
parts before it succeeded; leaves and the end of a statement never do. -/

namespace EventQuery

namespace Resolution

variable {α β : Type} {before : Progress}

theorem not_starves_pure {value : α} : ¬ Starves (pure value) before := by
  intro starved
  cases starved

theorem not_starves_refuse {error : ValidationError} {position : Option Position} :
    ¬ Starves (refuse error position : Resolution α) before := by
  intro starved
  cases starved

theorem not_starves_ofChecked {checked : Except LocatedError α} :
    ¬ (ofChecked checked).Starves before := by
  cases checked with
  | ok value => exact not_starves_pure
  | error failure =>
      intro starved
      cases starved

theorem starves_bind_iff {action : Resolution α} {next : α → Resolution β} :
    (action >>= next).Starves before ↔
      action.Starves before ∨
        ∃ value between, Yields action before value between ∧ (next value).Starves between := by
  unfold Starves Yields
  rw [outcome_bind]
  cases action.outcome before with
  | mk result between =>
      cases result with
      | ok value =>
          constructor
          · intro starved
            exact .inr ⟨value, between, rfl, starved⟩
          · rintro (impossible | ⟨_, _, same, starved⟩)
            · cases impossible
            · cases same
              exact starved
      | error fault => simp

theorem starves_get_bind_iff {next : Progress → Resolution β} :
    (get >>= next).Starves before ↔ (next before).Starves before :=
  Iff.rfl

theorem starves_bind_fed_iff {action : Resolution α} {next : α → Resolution β}
    (fed : ∀ value between, Yields action before value between → ¬ (next value).Starves between) :
    (action >>= next).Starves before ↔ action.Starves before := by
  rw [starves_bind_iff]
  constructor
  · rintro (starved | ⟨value, between, run, starved⟩)
    · exact starved
    · exact absurd starved (fed value between run)
  · exact .inl

theorem starves_mapM_iff {action : α → Resolution β} {items : List α} :
    (items.mapM action).Starves before ↔
      ∃ done item rest results between, items = done ++ item :: rest ∧
        Yields (done.mapM action) before results between ∧ (action item).Starves between := by
  induction items generalizing before with
  | nil =>
      constructor
      · intro starved
        exact absurd starved not_starves_pure
      · rintro ⟨done, item, rest, _, _, split, _⟩
        exact absurd split.symm (List.append_ne_nil_of_right_ne_nil _ (List.cons_ne_nil _ _))
  | cons head tail ih =>
      rw [List.mapM_cons, starves_bind_iff]
      constructor
      · rintro (starved | ⟨first, between, run, later⟩)
        · exact ⟨[], head, tail, [], before, rfl, yields_mapM_nil_iff.mpr ⟨rfl, rfl⟩, starved⟩
        · rw [starves_bind_fed_iff (fun _ _ _ => not_starves_pure), ih] at later
          obtain ⟨done, item, rest, results, inner, rfl, finished, starved⟩ := later
          exact ⟨head :: done, item, rest, first :: results, inner, rfl,
            yields_mapM_cons_iff.mpr ⟨first, between, results, run, finished, rfl⟩, starved⟩
      · rintro ⟨done, item, rest, results, between, split, finished, starved⟩
        cases done with
        | nil =>
            obtain ⟨rfl, rfl⟩ := List.cons.inj split
            obtain ⟨_, rfl⟩ := yields_mapM_nil_iff.mp finished
            exact .inl starved
        | cons first done =>
            obtain ⟨rfl, rfl⟩ := List.cons.inj split
            obtain ⟨result, between', results', run, later, rfl⟩ :=
              yields_mapM_cons_iff.mp finished
            refine .inr ⟨result, between', run, ?_⟩
            rw [starves_bind_fed_iff (fun _ _ _ => not_starves_pure), ih]
            exact ⟨done, item, rest, results', between, rfl, later, starved⟩

theorem RefinedBy.starves_or_yields {action finer : Resolution α} {after : Progress} {value : α}
    (refined : RefinedBy action finer) (run : Yields finer before value after) :
    action.Starves before ∨ Yields action before value after := by
  rcases refined before with starved | same
  · exact .inl starved
  · exact .inr (same.symm.trans run)

def Fed (action : Resolution α) : Prop :=
  ∀ before, ¬ action.Starves before

theorem Fed.pure (value : α) : Fed (pure value) :=
  fun _ => not_starves_pure

theorem Fed.refuse (error : ValidationError) (position : Option Position) :
    Fed (refuse error position : Resolution α) :=
  fun _ => not_starves_refuse

theorem Fed.ofChecked (checked : Except LocatedError α) : Fed (ofChecked checked) :=
  fun _ => not_starves_ofChecked

theorem Fed.bind {action : Resolution α} {next : α → Resolution β} (first : Fed action)
    (rest : ∀ value, Fed (next value)) : Fed (action >>= next) := by
  intro before starved
  rcases starves_bind_iff.mp starved with early | ⟨value, between, _, late⟩
  · exact first before early
  · exact rest value between late

theorem Fed.get_bind {next : Progress → Resolution β} (rest : ∀ progress, Fed (next progress)) :
    Fed (get >>= next) :=
  fun before => rest before before

theorem Fed.set_bind {progress : Progress} {next : PUnit → Resolution β} (rest : Fed (next ())) :
    Fed (set progress >>= next) :=
  fun _ => rest progress

theorem Fed.modifySymbols_bind {change : SymbolContext → SymbolContext}
    {next : Unit → Resolution β} (rest : Fed (next ())) :
    Fed (modifySymbols change >>= next) :=
  fun before => rest { before with symbols := change before.symbols }

end Resolution

open Resolution

namespace Frame

variable (frame : Frame) (scope : Scope)

theorem fed_resolveStreamProperty (stream : StreamBinding × Nat) (path : String)
    (position : Option Position) : Fed (frame.resolveStreamProperty stream path position) := by
  unfold resolveStreamProperty
  refine .get_bind (fun progress => ?_)
  dsimp only
  refine .set_bind ?_
  split
  · exact .pure _
  · exact .refuse _ _

theorem fed_resolveProperty (node : PropertyNode) : Fed (frame.resolveProperty scope node) := by
  unfold resolveProperty
  split
  · split
    · exact frame.fed_resolveStreamProperty _ _ _
    · exact .refuse _ _
  · unfold resolvePath
    split
    · exact .pure _
    · split
      · exact frame.fed_resolveStreamProperty _ _ _
      · exact .refuse _ _
      · split
        · exact frame.fed_resolveStreamProperty _ _ _
        · split
          · exact .modifySymbols_bind (.pure _)
          · split
            · exact frame.fed_resolveStreamProperty _ _ _
            · exact .refuse _ _

theorem fed_resolvePrior (position : Option Position) (index : Nat) (node : PropertyNode) :
    Fed (frame.resolvePrior scope position index node) := by
  refine (frame.fed_resolveProperty scope node).bind (fun tree => ?_)
  split
  · exact .modifySymbols_bind (.pure _)
  · exact .refuse _ _

theorem fed_resolveWildcard (position : Option Position) (stream : Option String) :
    Fed (frame.resolveWildcard scope position stream) := by
  unfold resolveWildcard
  split
  · split
    · split
      · exact .pure _
      · exact .refuse _ _
    · split
      · exact .pure _
      · exact .refuse _ _
  · exact .refuse _ _

theorem fed_resolveSubstitution (node : SubstitutionNode) :
    Fed (frame.resolveSubstitution node) := by
  unfold resolveSubstitution
  split
  · exact .refuse _ _
  · refine .get_bind (fun progress => ?_)
    dsimp only
    generalize (if node.name.isSome then ParameterStyle.named else .unnamed) = style
    split
    · exact .refuse _ _
    · exact .set_bind (.pure _)

theorem fed_resolveForge (family : FunctionFamily) (position : Option Position) :
    Fed (frame.resolveForge family position) := by
  unfold resolveForge
  refine .get_bind (fun progress => ?_)
  dsimp only
  split
  · exact .set_bind (.pure _)
  · exact .set_bind (.refuse _ _)

theorem fed_conclude (statement : Statement) (clauses : ResolvedClauses) :
    Fed (frame.conclude statement clauses) := by
  have aggregations : Fed (runAggregations frame) := by
    unfold runAggregations
    refine .get_bind (fun progress => ?_)
    dsimp only
    split
    · exact .refuse _ _
    · refine .set_bind ?_
      split
      · exact .pure _
      · exact .refuse _ _
  refine aggregations.bind (fun handlers => ?_)
  exact (Fed.ofChecked _).bind (fun typed => .get_bind (fun progress => .pure _))

end Frame

end EventQuery
