import EventQuery.Proofs.Resolution.Referents
import EventQuery.Proofs.Resolution.Inversion
import EventQuery.Proofs.Streams.Renumbering

set_option autoImplicit false

/-! Resolutions that are carried over to other frames: whatever the one yields the other yields as
well, with the streams under other numbers and with another memory. It is shown once how all
compound expressions are carried over; what has to be shown of two frames is what they say about
single names. -/

namespace EventQuery

/-- How the progress of one resolution is that of another: by the numbers of the streams, and by
how the memories are related. -/
structure Carriage where
  renumber : Nat → Nat
  memory : CompilerMemory → CompilerMemory → Prop

structure Carriage.Relates (carriage : Carriage) (before moved : Progress) : Prop where
  symbols : moved.symbols = before.symbols
  calls : moved.calls = before.calls.restreamed carriage.renumber
  subqueries : moved.subqueries = before.subqueries
  style : moved.style = before.style
  memory : carriage.memory before.memory moved.memory

namespace Resolution

variable {α β γ δ : Type} {carriage : Carriage} {before moved : Progress}

def CarriedAt (carriage : Carriage) (carry : α → β) (action : Resolution α)
    (other : Resolution β) (before moved : Progress) : Prop :=
  ∀ value after, Yields action before value after →
    ∃ movedAfter, Yields other moved (carry value) movedAfter ∧
      carriage.Relates after movedAfter

/-- From any progress, what the first resolution yields the second one yields. -/
def Carried (carriage : Carriage) (carry : α → β) (action : Resolution α)
    (other : Resolution β) : Prop :=
  ∀ before moved, carriage.Relates before moved →
    CarriedAt carriage carry action other before moved

namespace CarriedAt

theorem pure {carry : α → β} {value : α} {result : β} (same : result = carry value)
    (related : carriage.Relates before moved) :
    CarriedAt carriage carry (pure value) (pure result) before moved := by
  intro found after run
  obtain ⟨rfl, rfl⟩ := yields_pure_iff.mp run
  exact ⟨moved, yields_pure_iff.mpr ⟨same.symm, rfl⟩, related⟩

theorem refuse {carry : α → β} (error : ValidationError) (position : Option Position)
    (other : Resolution β) :
    CarriedAt carriage carry (refuse error position) other before moved :=
  fun _ _ run => absurd run not_yields_refuse

theorem get_bind {carry : α → β} {next : Progress → Resolution α}
    {otherNext : Progress → Resolution β}
    (rest : CarriedAt carriage carry (next before) (otherNext moved) before moved) :
    CarriedAt carriage carry (get >>= next) (get >>= otherNext) before moved :=
  rest

theorem set_bind {carry : α → β} {next : PUnit → Resolution α}
    {otherNext : PUnit → Resolution β} {later movedLater : Progress}
    (rest : CarriedAt carriage carry (next ()) (otherNext ()) later movedLater) :
    CarriedAt carriage carry (set later >>= next) (set movedLater >>= otherNext)
      before moved :=
  rest

end CarriedAt

namespace Carried

theorem pure {carry : α → β} {value : α} {result : β} (same : result = carry value) :
    Carried carriage carry (pure value) (pure result) :=
  fun _ _ related => .pure same related

theorem refuse {carry : α → β} (error : ValidationError) (position : Option Position)
    (other : Resolution β) : Carried carriage carry (refuse error position) other :=
  fun _ _ _ => .refuse error position other

theorem throw {carry : α → β} (fault : CompileFault) (other : Resolution β) :
    Carried carriage carry (throw fault) other :=
  fun _ _ _ _ _ run => absurd run not_yields_throw

theorem bind {carry : α → β} {carryNext : γ → δ} {action : Resolution α}
    {other : Resolution β} {next : α → Resolution γ} {otherNext : β → Resolution δ}
    (first : Carried carriage carry action other)
    (rest : ∀ value, Carried carriage carryNext (next value) (otherNext (carry value))) :
    Carried carriage carryNext (action >>= next) (other >>= otherNext) := by
  intro before moved related value after run
  obtain ⟨found, between, head, tail⟩ := yields_bind_iff.mp run
  obtain ⟨movedBetween, movedHead, relatedBetween⟩ := first before moved related found between head
  obtain ⟨movedAfter, movedTail, relatedAfter⟩ :=
    rest found between movedBetween relatedBetween value after tail
  exact ⟨movedAfter, yields_bind_iff.mpr ⟨_, _, movedHead, movedTail⟩, relatedAfter⟩

theorem ofChecked {carry : α → β} {checked : Except LocatedError α}
    {other : Except LocatedError β}
    (same : ∀ value, checked = .ok value → other = .ok (carry value)) :
    Carried carriage carry (ofChecked checked) (ofChecked other) := by
  intro before moved related value after run
  obtain ⟨accepted, rfl⟩ := yields_ofChecked_iff.mp run
  exact ⟨moved, yields_ofChecked_iff.mpr ⟨same value accepted, rfl⟩, related⟩

theorem modifySymbols_bind {carry : α → β} {change : SymbolContext → SymbolContext}
    {next : Unit → Resolution α} {otherNext : Unit → Resolution β}
    (rest : Carried carriage carry (next ()) (otherNext ())) :
    Carried carriage carry (modifySymbols change >>= next)
      (modifySymbols change >>= otherNext) := by
  intro before moved related
  have symbols : change moved.symbols = change before.symbols := by rw [related.symbols]
  exact rest { before with symbols := change before.symbols }
    { moved with symbols := change moved.symbols } { related with symbols := symbols }

theorem mapM {carry : β → γ} {action : α → Resolution β} {other : α → Resolution γ}
    (each : ∀ item, Carried carriage carry (action item) (other item)) (items : List α) :
    Carried carriage (List.map carry) (items.mapM action) (items.mapM other) := by
  induction items with
  | nil => exact .pure rfl
  | cons item items ih =>
      rw [List.mapM_cons, List.mapM_cons]
      exact (each item).bind (fun first => ih.bind (fun rest => .pure rfl))

theorem optionMapM {carry : β → γ} {action : α → Resolution β} {other : α → Resolution γ}
    (each : ∀ item, Carried carriage carry (action item) (other item)) (item : Option α) :
    Carried carriage (Option.map carry) (item.mapM action) (item.mapM other) := by
  cases item with
  | none => exact .pure rfl
  | some present =>
      rw [Option.mapM_some, Option.mapM_some, map_eq_pure_bind, map_eq_pure_bind]
      exact (each present).bind (fun first => .pure rfl)

end Carried

end Resolution

open Resolution

/-- The resolution of an expression is carried over, with the streams under their new numbers. -/
abbrev Carriage.Carries (carriage : Carriage) (action other : Resolution Resolved) : Prop :=
  Carried carriage (Resolved.restreamed carriage.renumber) action other

theorem Scope.lookup_restreamed (renumber : Nat → Nat) (scope : Scope) (name : String) :
    (scope.restreamed renumber).bindings.lookup name =
      (scope.bindings.lookup name).map (Resolved.restreamed renumber) := by
  obtain ⟨bindings, _, _, _⟩ := scope
  unfold Scope.restreamed
  dsimp only
  induction bindings with
  | nil => rfl
  | cons entry bindings ih =>
      rw [List.map_cons, List.lookup_cons, List.lookup_cons, ih]
      cases name == entry.1 <;> rfl

theorem Carriage.carries_resolveProperty {carriage : Carriage} {frame other : Frame}
    (scope : Scope) (node : PropertyNode)
    (follows : ∀ referent, frame.denoted? node = some referent → ∀ before moved,
      carriage.Relates before moved → ∀ tree after,
      Yields (frame.follow node.position referent) before tree after →
      ∃ found movedAfter, other.denoted? node = some found ∧
        Yields (other.follow node.position found) moved (tree.restreamed carriage.renumber)
          movedAfter ∧ carriage.Relates after movedAfter) :
    carriage.Carries (frame.resolveProperty scope node)
      (other.resolveProperty (scope.restreamed carriage.renumber) node) := by
  intro before moved related tree after run
  rcases Frame.yields_resolveProperty_iff.mp run with ⟨unnamed, bound, rfl⟩ |
    ⟨free, referent, denoted, followed⟩
  · refine ⟨moved, Frame.yields_resolveProperty_iff.mpr (.inl ⟨unnamed, ?_, rfl⟩), related⟩
    rw [Scope.lookup_restreamed, bound]
    rfl
  · obtain ⟨found, movedAfter, again, movedRun, relatedAfter⟩ :=
      follows referent denoted before moved related tree after followed
    refine ⟨movedAfter, Frame.yields_resolveProperty_iff.mpr (.inr ⟨?_, found, again, movedRun⟩),
      relatedAfter⟩
    intro unnamed
    rw [Scope.lookup_restreamed, free unnamed]
    rfl

/-! ### Compound expressions -/

/-- What two frames say about single names: whatever is found under a name in the one is found
in the other. -/
structure Carriage.Joins (carriage : Carriage) (frame other : Frame) : Prop where
  isSubquery : other.isSubquery = frame.isSubquery
  declarations : other.services.declarations = frame.services.declarations
  tables : ∀ name table, frame.services.table? name = some table →
    other.services.table? name = some table
  families : ∀ name family, frame.services.family? name = some family →
    other.services.family? name = some family
  forge : ∀ family position, Carried carriage id (frame.resolveForge family position)
    (other.resolveForge family position)
  property : ∀ scope node, carriage.Carries (frame.resolveProperty scope node)
    (other.resolveProperty (scope.restreamed carriage.renumber) node)
  wildcard : ∀ scope position stream, carriage.Carries
    (frame.resolveWildcard scope position stream)
    (other.resolveWildcard (scope.restreamed carriage.renumber) position stream)

namespace Carriage.Joins

variable {carriage : Carriage} {frame other : Frame} (joins : carriage.Joins frame other)

include joins

theorem prior (scope : Scope) (position : Option Position) (index : Nat) (node : PropertyNode) :
    carriage.Carries (frame.resolvePrior scope position index node)
      (other.resolvePrior (scope.restreamed carriage.renumber) position index node) := by
  refine (joins.property scope node).bind (fun tree => ?_)
  cases tree with
  | property stream path compiled => exact .modifySymbols_bind (.pure rfl)
  | _ => exact .refuse _ _ _

theorem substitution (node : SubstitutionNode) :
    carriage.Carries (frame.resolveSubstitution node) (other.resolveSubstitution node) := by
  unfold Frame.resolveSubstitution
  rw [joins.isSubquery]
  split
  · exact .refuse _ _ _
  · intro before moved related
    refine .get_bind ?_
    dsimp only
    rw [related.style, related.symbols]
    generalize (if node.name.isSome then ParameterStyle.named else .unnamed) = wanted
    by_cases mixed : before.style.any (fun style => style ≠ wanted) = true
    · rw [if_pos mixed]
      exact .refuse _ _ _
    · rw [if_neg mixed, if_neg mixed]
      exact .set_bind (.pure rfl { related with symbols := rfl, style := rfl })

theorem declaration? {before moved : Progress} (related : carriage.Relates before moved)
    (name : String) :
    other.declaration? moved.symbols name = frame.declaration? before.symbols name := by
  unfold Frame.declaration? Services.declaration?
  rw [related.symbols, joins.declarations]

section

variable {resolver otherResolver : Scope → Expression → Resolution Resolved}
  (each : ∀ scope expression, carriage.Carries (resolver scope expression)
    (otherResolver (scope.restreamed carriage.renumber) expression))

include each

theorem table (scope : Scope) (node : TableAccess) :
    carriage.Carries (frame.resolveTable (resolver scope) node)
      (other.resolveTable (otherResolver (scope.restreamed carriage.renumber)) node) := by
  unfold Frame.resolveTable
  cases known : frame.services.table? node.table with
  | none => exact .refuse _ _ _
  | some table =>
      rw [joins.tables node.table table known]
      dsimp only
      split
      · exact .refuse _ _ _
      · refine (Carried.mapM (fun (key, column) => (each scope key).bind (fun tree =>
          .ofChecked (fun _ => Frame.checkedKey_restreamed carriage.renumber))) _).bind
            (fun keys => ?_)
        have typing : Carried carriage id (ofChecked (Frame.accessedType node table))
            (ofChecked (Frame.accessedType node table)) := .ofChecked (fun _ => id)
        refine typing.bind (fun type => .modifySymbols_bind (.pure ?_))
        rw [Resolved.restreamed, Resolved.restreamedAll_eq_map]
        rfl

omit joins in
theorem declared (scope : Scope) (node : FunctionCall) (declaration : Declaration) :
    carriage.Carries (Frame.resolveDeclared resolver scope node declaration)
      (Frame.resolveDeclared otherResolver (scope.restreamed carriage.renumber) node
        declaration) := by
  have expanding : (scope.restreamed carriage.renumber).expanding = scope.expanding := rfl
  unfold Frame.resolveDeclared
  rw [expanding]
  dsimp only
  split
  · exact .refuse _ _ _
  · split
    · exact .refuse _ _ _
    · refine (Carried.mapM (each scope) _).bind (fun arguments => ?_)
      have entering : (scope.restreamed carriage.renumber).entering node.name declaration
          (arguments.map (Resolved.restreamed carriage.renumber)) =
          (scope.entering node.name declaration arguments).restreamed carriage.renumber := by
        unfold Scope.entering Scope.restreamed
        rw [List.zip_map_right, List.map_reverse]
        rfl
      rw [entering]
      exact (each _ declaration.body).bind (fun body => .pure rfl)

omit joins in
theorem parameter (scope : Scope) (expression : Expression) :
    Carried carriage (AggregationParameter.restreamed carriage.renumber)
      (do ofChecked (Frame.aggregationParameter (← resolver scope expression)))
      (do ofChecked (Frame.aggregationParameter
        (← otherResolver (scope.restreamed carriage.renumber) expression))) := by
  refine (each scope expression).bind (fun tree => .ofChecked (fun parameter seen => ?_))
  rw [Frame.aggregationParameter_restreamed, seen]
  rfl

theorem aggregation (scope : Scope) (node : FunctionCall) (family : FunctionFamily) :
    carriage.Carries (frame.resolveAggregation resolver scope node family)
      (other.resolveAggregation otherResolver (scope.restreamed carriage.renumber) node
        family) := by
  have clause : (scope.restreamed carriage.renumber).clause = scope.clause := rfl
  have inside : (scope.restreamed carriage.renumber).inAggregation = scope.inAggregation := rfl
  unfold Frame.resolveAggregation
  rw [clause, inside]
  split
  · exact .refuse _ _ _
  · split
    · exact .refuse _ _ _
    · refine (joins.forge family node.position).bind (fun forge => ?_)
      refine (Carried.mapM (parameter each scope.aggregated) _).bind (fun parameters => ?_)
      intro before moved related
      refine .get_bind ?_
      cases added : before.calls.add ⟨node, .ofFamily family, forge, family, parameters⟩ with
      | error failure => exact .refuse _ _ _
      | ok result =>
          obtain ⟨site, calls⟩ := result
          have again : moved.calls.add ⟨node, .ofFamily family, forge, family,
              parameters.map (AggregationParameter.restreamed carriage.renumber)⟩ =
              .ok (site, calls.restreamed carriage.renumber) := by
            rw [related.calls]
            exact CallSites.add_restreamed carriage.renumber added
          dsimp only [id]
          rw [again]
          exact .set_bind (.pure rfl { related with calls := rfl })

theorem call (scope : Scope) (node : FunctionCall) :
    carriage.Carries (frame.resolveCall resolver scope node)
      (other.resolveCall otherResolver (scope.restreamed carriage.renumber) node) := by
  intro before moved related
  unfold Frame.resolveCall
  refine .get_bind ?_
  dsimp only
  rw [joins.declaration? related, related.symbols]
  cases frame.declaration? before.symbols node.name with
  | some declaration => exact declared each scope node declaration before moved related
  | none =>
      dsimp only
      split
      · cases before.symbols.script? node.name node.parameters.length with
        | none => exact .refuse _ _ _
        | some script =>
            have scripted : carriage.Carries
                (do return .script script (← node.parameters.mapM (resolver scope)))
                (do return .script script (← node.parameters.mapM
                  (otherResolver (scope.restreamed carriage.renumber)))) := by
              refine (Carried.mapM (each scope) _).bind (fun arguments => .pure ?_)
              rw [Resolved.restreamed, Resolved.restreamedAll_eq_map]
            exact scripted before moved related
      · cases known : frame.services.family? node.name with
        | none => exact .refuse _ _ _
        | some family =>
            rw [joins.families node.name family known]
            exact joins.aggregation each scope node family before moved related

end

theorem step {resolver otherResolver : Resolver} {fuel : Nat}
    (each : ∀ scope expression, carriage.Carries (resolve resolver fuel frame scope expression)
      (resolve otherResolver fuel other (scope.restreamed carriage.renumber) expression))
    (subqueries : ∀ position statement, carriage.Carries
      (frame.resolveSubquery (resolve resolver fuel) position statement)
      (other.resolveSubquery (resolve otherResolver fuel) position statement))
    (scope : Scope) (expression : Expression) :
    carriage.Carries (resolve resolver (fuel + 1) frame scope expression)
      (resolve otherResolver (fuel + 1) other (scope.restreamed carriage.renumber)
        expression) := by
  have pair {left right : Expression} {combine : Resolved → Resolved → Resolved}
      (apart : ∀ first second, (combine first second).restreamed carriage.renumber =
        combine (first.restreamed carriage.renumber) (second.restreamed carriage.renumber)) :
      carriage.Carries
        (do
          let first ← resolve resolver fuel frame scope left
          let second ← resolve resolver fuel frame scope right
          return combine first second)
        (do
          let first ← resolve otherResolver fuel other (scope.restreamed carriage.renumber) left
          let second ← resolve otherResolver fuel other (scope.restreamed carriage.renumber) right
          return combine first second) :=
    (each scope left).bind (fun first => (each scope right).bind
      (fun second => .pure (apart first second).symm))
  cases expression with
  | constant position value => exact .pure rfl
  | property node => exact joins.property scope node
  | wildcard position stream => exact joins.wildcard scope position stream
  | table node => exact joins.table each scope node
  | substitution node => exact joins.substitution node
  | prior position index node => exact joins.prior scope position index node
  | call node => exact joins.call each scope node
  | subquery position statement => exact subqueries position statement
  | math operator left right => exact pair (fun _ _ => rfl)
  | compare operator left right => exact pair (fun _ _ => rfl)
  | and left right => exact pair (fun _ _ => rfl)
  | or left right => exact pair (fun _ _ => rfl)
  | not inner => exact (each scope inner).bind (fun tree => .pure rfl)

end Carriage.Joins

theorem Carriage.carried_resolveClauses {carriage : Carriage}
    {resolver otherResolver : Scope → Expression → Resolution Resolved}
    (each : ∀ scope expression, carriage.Carries (resolver scope expression)
      (otherResolver (scope.restreamed carriage.renumber) expression)) (statement : Statement) :
    Carried carriage (ResolvedClauses.restreamed carriage.renumber)
      (resolveClauses resolver statement) (resolveClauses otherResolver statement) := by
  unfold resolveClauses
  have column (item : SelectItem) (index : Nat) :
      Carried carriage (SelectColumn.restreamed carriage.renumber)
        (do
          let expression ← resolver (.ofClause .select) item.expression
          return SelectColumn.mk (item.rename.getD (item.expression.columnName index)) expression)
        (do
          let expression ← otherResolver (.ofClause .select) item.expression
          return SelectColumn.mk (item.rename.getD (item.expression.columnName index))
            expression) :=
    (each (.ofClause .select) item.expression).bind (fun tree => .pure rfl)
  refine (Carried.mapM (fun (item, index) => column item index) _).bind (fun select => ?_)
  refine (Carried.optionMapM (each (.ofClause .filter)) _).bind (fun filter => ?_)
  refine (Carried.mapM (each (.ofClause .groupBy)) _).bind (fun groupBy => ?_)
  refine (Carried.optionMapM (each (.ofClause .having)) _).bind (fun having => ?_)
  exact .pure rfl

end EventQuery
