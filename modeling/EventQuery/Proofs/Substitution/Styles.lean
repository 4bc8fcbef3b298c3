import EventQuery.Proofs.Substitution.Binding
import EventQuery.Proofs.Substitution.Slots

set_option autoImplicit false

/-! The styles of the substitution parameters of compiled statements. While a statement is resolved
its own parameters are kept in one style, at whatever depth they stand; but the style starts
anew with the statement, whatever parameters its symbols hold already. -/

namespace EventQuery

open Resolution

namespace Progress

/-- The parameters that were added to some earlier ones have the style of the progress. -/
def StyledAfter (progress : Progress) (earlier : List SubstitutionNode) : Prop :=
  ∃ added, progress.symbols.substitutions = earlier ++ added ∧
    ∀ node ∈ added, progress.style = some node.style

variable {before after : Progress} {earlier : List SubstitutionNode}

theorem StyledAfter.of_undisturbed (styled : before.StyledAfter earlier)
    (kept : before.Undisturbed after) : after.StyledAfter earlier := by
  unfold StyledAfter
  rw [kept.substitutions, kept.style]
  exact styled

theorem styledAfter_opening (statement : Statement) (symbols : SymbolContext)
    (memory : CompilerMemory) :
    (Progress.opening statement symbols memory).StyledAfter symbols.substitutions := by
  refine ⟨[], ?_, List.forall_mem_nil _⟩
  rw [List.append_nil]
  exact SymbolContext.substitutions_opened symbols statement

theorem StyledAfter.of_resolveSubstitution {frame : Frame} {node : SubstitutionNode}
    {tree : Resolved} (styled : before.StyledAfter earlier)
    (run : Yields (frame.resolveSubstitution node) before tree after) :
    after.StyledAfter earlier := by
  obtain ⟨_, same, _, rfl⟩ := Frame.yields_resolveSubstitution_iff.mp run
  obtain ⟨added, recorded, all⟩ := styled
  refine ⟨added ++ [node], ?_, ?_⟩
  · exact (congrArg (· ++ [node]) recorded).trans (List.append_assoc _ _ _)
  · intro other member
    rcases List.mem_append.mp member with already | last
    -- An earlier parameter has set the style, and only a parameter of that style is let through.
    · exact congrArg some (same other.style (all other already)).symm
    · rw [List.mem_singleton.mp last]

end Progress

mutual

theorem Resolves.styledAfter {frame : Frame} {scope : Scope} {expression : Expression}
    {tree : Resolved} {before after : Progress} {earlier : List SubstitutionNode} :
    Resolves frame scope expression before tree after →
      before.StyledAfter earlier → after.StyledAfter earlier
  | .constant, styled => styled
  | .property run, styled => styled.of_undisturbed (Frame.undisturbed_of_resolveProperty run)
  | .wildcard run, styled => by rwa [(Frame.yields_resolveWildcard run).1]
  | .substitution run, styled => styled.of_resolveSubstitution run
  | .prior run, styled => styled.of_undisturbed (Frame.undisturbed_of_resolvePrior run)
  | .table _ _ given _ _, styled => by
      have inner := given.styledAfter styled
      exact inner
  | .declared _ _ _ given inner, styled => inner.styledAfter (given.styledAfter styled)
  | .script _ _ given, styled => given.styledAfter styled
  | .aggregation _ _ _ _ _ _ created given _ _, styled => by
      have inner := given.styledAfter
        (styled.of_undisturbed (Frame.undisturbed_of_resolveForge created))
      exact inner
  | .subquery _ _, styled => styled
  | .math left right, styled => right.styledAfter (left.styledAfter styled)
  | .compare left right, styled => right.styledAfter (left.styledAfter styled)
  | .and left right, styled => right.styledAfter (left.styledAfter styled)
  | .or left right, styled => right.styledAfter (left.styledAfter styled)
  | .not inner, styled => inner.styledAfter styled

theorem ResolvesAll.styledAfter {frame : Frame} {items : List (Scope × Expression)}
    {trees : List Resolved} {before after : Progress} {earlier : List SubstitutionNode} :
    ResolvesAll frame items before trees after →
      before.StyledAfter earlier → after.StyledAfter earlier
  | .nil, styled => styled
  | .cons head tail, styled => tail.styledAfter (head.styledAfter styled)

end

namespace Services

variable {services : Services} {order : Nat → List Nat} {statement : Statement}
  {symbols : SymbolContext} {memory : CompilerMemory}

/-- The parameters that a statement adds to those it is given are of one style. With the given ones
they are of one style exactly if the statement keeps to the style of these, and if they are
not, the statement can be bound only by the empty name. -/
theorem bindable_of_compileWith {spec : StatementSpec}
    (compiled : (services.compileWith order statement symbols memory).result = .ok spec)
    (uniform : OneStyle symbols.substitutions) :
    ∃ added, spec.substitutions = symbols.substitutions ++ added ∧ OneStyle added ∧
      (OneStyle spec.substitutions ↔
        ∀ given ∈ symbols.substitutions, ∀ node ∈ added, given.style = node.style) ∧
      (spec.Bindable ↔ OneStyle spec.substitutions ∨
        ∃ node ∈ spec.substitutions, node.name = some "") := by
  obtain ⟨bare, finish, derived, rfl⟩ := compiles_of_compileWith compiled
  obtain ⟨_, given, _, concluded⟩ := derived
  obtain ⟨_, _, _, _, _, kept⟩ := yields_conclude concluded
  obtain ⟨added, recorded, all⟩ :=
    given.styledAfter (Progress.styledAfter_opening statement symbols memory)
  have own : OneStyle added := by
    cases added with
    | nil => exact oneStyle_nil
    | cons first rest =>
        refine ⟨first.style, fun node member => ?_⟩
        exact Option.some.inj ((all node member).symm.trans (all first List.mem_cons_self))
  have whole : finish.symbols.substitutions = symbols.substitutions ++ added := by
    rw [kept, recorded]
  refine ⟨added, whole, own, ?_, StatementSpec.bindable_iff⟩
  change OneStyle finish.symbols.substitutions ↔ _
  rw [whole, oneStyle_append_iff, and_iff_right uniform, and_iff_right own]

set_option maxRecDepth 100000 in
theorem bindable_doublingStatement :
    ∃ spec, (counting.compileWith List.range doublingStatement givenSymbols .empty).result =
        .ok spec ∧
      OneStyle givenSymbols.substitutions ∧
      ∃ added, spec.substitutions = givenSymbols.substitutions ++ added ∧ OneStyle added ∧
        (OneStyle spec.substitutions ↔
          ∀ given ∈ givenSymbols.substitutions, ∀ node ∈ added, given.style = node.style) ∧
        (spec.Bindable ↔ OneStyle spec.substitutions ∨
          ∃ node ∈ spec.substitutions, node.name = some "") := by
  have uniform : OneStyle givenSymbols.substitutions :=
    ⟨.named, List.forall_mem_singleton.mpr rfl⟩
  have compiled : ∃ spec, (counting.compileWith List.range doublingStatement givenSymbols
      .empty).result = .ok spec := ⟨_, rfl⟩
  obtain ⟨spec, compiled⟩ := compiled
  exact ⟨spec, compiled, uniform, bindable_of_compileWith compiled uniform⟩

set_option maxRecDepth 100000 in
/-- A statement with an unnamed parameter, compiled with symbols that hold a named one, cannot be
bound. -/
theorem unbindable_selecting_unnamed :
    OneStyle givenSymbols.substitutions ∧
      ∃ spec, (initial.compileWith List.range
          (.selecting "s" (.substitution ⟨none, none, none⟩)) givenSymbols .empty).result =
            .ok spec ∧
        ¬ OneStyle spec.substitutions ∧ ¬ spec.Bindable := by
  refine ⟨⟨.named, List.forall_mem_singleton.mpr rfl⟩, _, rfl, ?_⟩
  rw [StatementSpec.bindable_iff]
  have mixed : ¬ OneStyle [⟨none, some "z", none⟩, ⟨none, none, none⟩] := by
    rintro ⟨style, all⟩
    have first := all _ List.mem_cons_self
    have second := all _ (List.mem_cons_of_mem _ List.mem_cons_self)
    cases first.trans second.symm
  refine ⟨mixed, ?_⟩
  rintro (uniform | ⟨node, member, isEmpty⟩)
  · exact mixed uniform
  · have among : node ∈ [⟨none, some "z", none⟩, ⟨none, none, none⟩] := member
    simp only [List.mem_cons, List.not_mem_nil, or_false] at among
    rcases among with rfl | rfl
    · exact absurd isEmpty (by decide)
    · exact absurd isEmpty (by decide)

end Services

end EventQuery
