import EventQuery.Proofs.Resolution.Conclusion

set_option autoImplicit false

/-! What was gathered before is never lost, whether a resolution ends with a tree, is refused or
runs out of fuel. -/

namespace EventQuery

open Resolution

/-- All positions of one progress are positions of another, for the same things. -/
structure Progress.Extends (before after : Progress) : Prop where
  substitutions : before.symbols.substitutions <+: after.symbols.substitutions
  sites : before.calls.sites <+: after.calls.sites
  subqueries : before.subqueries <+: after.subqueries
  forges : ∀ key forge, before.symbols.forge? key = some forge →
    after.symbols.forge? key = some forge
  declarations : after.symbols.declarations = before.symbols.declarations
  scripts : after.symbols.scripts = before.symbols.scripts

namespace Progress.Extends

theorem refl (progress : Progress) : progress.Extends progress where
  substitutions := List.prefix_refl _
  sites := List.prefix_refl _
  subqueries := List.prefix_refl _
  forges _ _ registered := registered
  declarations := rfl
  scripts := rfl

theorem trans {first second third : Progress} (early : first.Extends second)
    (late : second.Extends third) : first.Extends third where
  substitutions := early.substitutions.trans late.substitutions
  sites := early.sites.trans late.sites
  subqueries := early.subqueries.trans late.subqueries
  forges key forge registered := late.forges key forge (early.forges key forge registered)
  declarations := late.declarations.trans early.declarations
  scripts := late.scripts.trans early.scripts

end Progress.Extends

/-- One progress holds all that another held. What a statement is given before its resolution is
the same. -/
structure Progress.Keeps (before after : Progress) : Prop extends before.Extends after where
  variableNames : before.symbols.variableNames <+: after.symbols.variableNames
  tables : before.symbols.tables <+: after.symbols.tables
  context : after.symbols.contextName = before.symbols.contextName

namespace Progress.Keeps

theorem refl (progress : Progress) : progress.Keeps progress where
  toExtends := .refl progress
  variableNames := List.prefix_refl _
  tables := List.prefix_refl _
  context := rfl

theorem trans {first second third : Progress} (early : first.Keeps second)
    (late : second.Keeps third) : first.Keeps third where
  toExtends := early.toExtends.trans late.toExtends
  variableNames := early.variableNames.trans late.variableNames
  tables := early.tables.trans late.tables
  context := late.context.trans early.context

end Progress.Keeps

namespace SymbolContext

theorem forge?_addForge_of_registered {symbols : SymbolContext}
    {key other : AggregationKey} {forge found : Forge} (free : symbols.forge? key = none)
    (registered : symbols.forge? other = some found) :
    (symbols.addForge key forge).forge? other = some found := by
  have different : other ≠ key := by
    rintro rfl
    rw [free] at registered
    cases registered
  exact (Entries.lookup_put_of_ne _ forge different).trans registered

theorem prefix_addName (names : List String) (name : String) : names <+: addName names name := by
  unfold addName
  split
  · exact List.prefix_refl _
  · exact List.prefix_append _ _

theorem prefix_addTable (tables : List TableAccess) (node : TableAccess) :
    tables <+: addTable tables node := by
  unfold addTable
  split
  · exact List.prefix_refl _
  · exact List.prefix_append _ _

theorem prefix_foldl {α : Type} {add : List α → α → List α}
    (keeps : ∀ items item, items <+: add items item) (items others : List α) :
    items <+: others.foldl add items := by
  induction others generalizing items with
  | nil => exact List.prefix_refl _
  | cons other others ih => exact (keeps items other).trans (ih _)

end SymbolContext

namespace Progress

variable (before : Progress)

theorem keeps_recordVariable (name : String) :
    before.Keeps { before with symbols := before.symbols.recordVariable name } :=
  { Keeps.refl before with variableNames := SymbolContext.prefix_addName _ _ }

theorem keeps_recordTable (node : TableAccess) :
    before.Keeps { before with symbols := before.symbols.recordTable node } :=
  { Keeps.refl before with tables := SymbolContext.prefix_addTable _ _ }

theorem keeps_afterSubquery (spec : StatementSpec) (symbols : SymbolContext)
    (memory : CompilerMemory) : before.Keeps (before.afterSubquery spec symbols memory) :=
  { Keeps.refl before with
    subqueries := List.prefix_append _ _
    variableNames := SymbolContext.prefix_foldl SymbolContext.prefix_addName _ _
    tables := SymbolContext.prefix_foldl SymbolContext.prefix_addTable _ _ }

theorem keeps_addForge {key : AggregationKey} (free : before.symbols.forge? key = none)
    (forge : Forge) : before.Keeps { before with symbols := before.symbols.addForge key forge } :=
  { Keeps.refl before with
    forges := fun _ _ registered =>
      SymbolContext.forge?_addForge_of_registered free registered }

theorem extends_of_add {progress : Progress} {site : CallSite} {index : Nat}
    {calls : CallSites} (added : progress.calls.add site = .ok (index, calls)) :
    progress.Extends { progress with calls := calls } := by
  refine { Progress.Extends.refl progress with sites := ?_ }
  rw [(CallSites.sites_of_add added).2]
  exact List.prefix_append _ _

end Progress

namespace Resolution

variable {α β : Type}

/-- However the resolution ends, nothing that was gathered before it is lost. -/
def Keeps (action : Resolution α) : Prop :=
  ∀ before : Progress, before.Keeps (action.outcome before).2

namespace Keeps

theorem pure (value : α) : Keeps (pure value : Resolution α) :=
  fun before => .refl before

theorem throw (fault : CompileFault) : Keeps (throw fault : Resolution α) :=
  fun before => .refl before

theorem refuse (error : ValidationError) (position : Option Position) :
    Keeps (refuse error position : Resolution α) :=
  throw _

theorem ofChecked (checked : Except LocatedError α) : Keeps (ofChecked checked) := by
  cases checked with
  | ok value => exact pure value
  | error failure => exact throw _

theorem bind {action : Resolution α} {next : α → Resolution β} (first : Keeps action)
    (rest : ∀ value, Keeps (next value)) : Keeps (action >>= next) := by
  intro before
  have early := first before
  rw [outcome_bind]
  cases run : action.outcome before with
  | mk result between =>
      rw [run] at early
      cases result with
      | error fault => exact early
      | ok value => exact early.trans (rest value between)

theorem mapM {action : α → Resolution β} (each : ∀ item, Keeps (action item)) (items : List α) :
    Keeps (items.mapM action) := by
  induction items with
  | nil => exact pure []
  | cons item items ih =>
      rw [List.mapM_cons]
      exact (each item).bind (fun first => ih.bind (fun rest => pure (first :: rest)))

theorem of_yields {action : Resolution α} (keeps : Keeps action) {before after : Progress}
    {value : α} (run : Yields action before value after) : before.Keeps after := by
  have kept := keeps before
  unfold Yields at run
  rw [run] at kept
  exact kept

theorem modifySymbols {change : SymbolContext → SymbolContext}
    (kept : ∀ before : Progress, before.Keeps { before with symbols := change before.symbols }) :
    Keeps (modifySymbols change) :=
  kept

end Keeps

end Resolution

namespace Frame

variable (frame : Frame) (scope : Scope)

theorem keeps_resolveStreamProperty (stream : StreamBinding × Nat) (path : String)
    (position : Option Position) : Keeps (frame.resolveStreamProperty stream path position) := by
  intro before
  unfold resolveStreamProperty
  rw [outcome_get_bind]
  cases before.memory.getters.compile frame.services.registry stream.1.type path with
  | mk result getters =>
      cases result with
      | ok compiled => exact { Progress.Keeps.refl before with }
      | error failure => exact { Progress.Keeps.refl before with }

theorem keeps_resolvePath (path : String) (position : Option Position) :
    Keeps (frame.resolvePath scope path position) := by
  unfold resolvePath
  split
  · exact .pure _
  · split
    · exact frame.keeps_resolveStreamProperty _ _ _
    · exact .refuse _ _
    · split
      · exact frame.keeps_resolveStreamProperty _ _ _
      · split
        · exact (Keeps.modifySymbols (fun before => before.keeps_recordVariable _)).bind
            (fun _ => .pure _)
        · split
          · exact frame.keeps_resolveStreamProperty _ _ _
          · exact .refuse _ _

theorem keeps_resolveProperty (node : PropertyNode) :
    Keeps (frame.resolveProperty scope node) := by
  unfold resolveProperty
  split
  · split
    · exact frame.keeps_resolveStreamProperty _ _ _
    · exact .refuse _ _
  · exact frame.keeps_resolvePath scope _ _

theorem keeps_resolvePrior (position : Option Position) (index : Nat) (node : PropertyNode) :
    Keeps (frame.resolvePrior scope position index node) := by
  apply (frame.keeps_resolveProperty scope node).bind
  intro tree
  split
  · apply Keeps.bind
    · apply Keeps.modifySymbols
      exact fun before => { Progress.Keeps.refl before with }
    · exact fun _ => .pure _
  · exact .refuse _ _

theorem keeps_resolveWildcard (position : Option Position) (stream : Option String) :
    Keeps (frame.resolveWildcard scope position stream) := by
  unfold resolveWildcard
  split
  · split
    · split
      · exact .pure _
      · exact .refuse _ _
    · split
      · exact .pure _
      · exact .refuse _ _
  · exact .refuse _ _

theorem keeps_resolveSubstitution (node : SubstitutionNode) :
    Keeps (frame.resolveSubstitution node) := by
  unfold resolveSubstitution
  split
  · exact .refuse _ _
  · intro before
    dsimp only
    rw [outcome_get_bind]
    generalize (if node.name.isSome then ParameterStyle.named else .unnamed) = style
    by_cases mixed : before.style.any (fun other => other ≠ style) = true
    · rw [if_pos mixed]
      exact .refl before
    · rw [if_neg mixed]
      exact { Progress.Keeps.refl before with substitutions := List.prefix_append _ _ }

theorem keeps_resolveForge (family : FunctionFamily) (position : Option Position) :
    Keeps (frame.resolveForge family position) := by
  intro before
  unfold resolveForge SymbolContext.resolveForge
  rw [outcome_get_bind]
  cases registered : before.symbols.forge? (.ofFamily family) with
  | some forge => exact { Progress.Keeps.refl before with }
  | none =>
      dsimp only
      cases frame.services.createForge family before.memory.workshop with
      | mk result workshop =>
          cases result with
          | error failure => exact { Progress.Keeps.refl before with }
          | ok forge => exact { before.keeps_addForge registered forge with }

theorem keeps_add (site : CallSite) (position : Option Position) :
    Keeps (do
      let progress ← get
      match progress.calls.add site with
      | .error failure => refuse failure position
      | .ok (index, calls) =>
          set { progress with calls := calls }
          return Resolved.aggregation index position none) := by
  intro before
  rw [outcome_get_bind]
  cases added : before.calls.add site with
  | error failure => exact .refl before
  | ok place => exact { Progress.Keeps.refl before with toExtends := Progress.extends_of_add added }

variable {scope}

/-! ### Expressions -/

section

variable {resolver : Resolver}
  (keeps : ∀ frame scope expression, (resolver frame scope expression).Keeps)

include keeps

theorem keeps_resolveTable (node : TableAccess) :
    Keeps (frame.resolveTable (resolver frame scope) node) := by
  unfold resolveTable
  split
  · exact .refuse _ _
  · split
    · exact .refuse _ _
    · apply Keeps.bind
      · apply Keeps.mapM
        intro entry
        exact (keeps frame scope entry.1).bind (fun _ => .ofChecked _)
      · intro keys
        apply (Keeps.ofChecked _).bind
        intro type
        exact (Keeps.modifySymbols (fun before => before.keeps_recordTable node)).bind
          (fun _ => .pure _)

theorem keeps_resolveDeclared (node : FunctionCall) (declaration : Declaration) :
    Keeps (resolveDeclared (resolver frame) scope node declaration) := by
  unfold resolveDeclared
  dsimp only
  split
  · exact .refuse _ _
  · split
    · exact .refuse _ _
    · apply (Keeps.mapM (keeps frame scope) _).bind
      intro arguments
      exact (keeps frame _ declaration.body).bind (fun _ => .pure _)

theorem keeps_resolveAggregation (node : FunctionCall) (family : FunctionFamily) :
    Keeps (frame.resolveAggregation (resolver frame) scope node family) := by
  unfold resolveAggregation
  split
  · exact .refuse _ _
  · split
    · exact .refuse _ _
    · apply (frame.keeps_resolveForge family _).bind
      intro forge
      apply Keeps.bind
      · apply Keeps.mapM
        intro parameter
        exact (keeps frame _ parameter).bind (fun _ => .ofChecked _)
      · intro parameters
        exact keeps_add _ _

theorem keeps_resolveCall (node : FunctionCall) :
    Keeps (frame.resolveCall (resolver frame) scope node) := by
  intro before
  unfold resolveCall
  rw [outcome_get_bind]
  dsimp only
  split
  · exact frame.keeps_resolveDeclared keeps node _ before
  · split
    · split
      · exact .refl before
      · exact (Keeps.mapM (keeps frame scope) _).bind (fun _ => .pure _) before
    · split
      · exact frame.keeps_resolveAggregation keeps node _ before
      · exact .refl before

end

/-- What happens in a subquery is told by its spec and its symbols alone. -/
theorem keeps_resolveSubquery (resolver : Resolver) (position : Option Position)
    (statement : Statement) : Keeps (frame.resolveSubquery resolver position statement) := by
  unfold resolveSubquery
  split
  · exact .refuse _ _
  · intro before
    rw [outcome_get_bind]
    cases compileStatement resolver frame.services frame.order true statement .empty
        before.memory with
    | mk result memory =>
        cases result with
        | error fault => exact { Progress.Keeps.refl before with }
        | ok compiled => exact before.keeps_afterSubquery compiled.1 compiled.2 memory

end Frame

theorem keeps_resolve (fuel : Nat) (frame : Frame) (scope : Scope) (expression : Expression) :
    Keeps (resolve .spent fuel frame scope expression) := by
  induction fuel generalizing frame scope expression with
  | zero => exact .throw _
  | succ fuel ih =>
      cases expression with
      | constant position value => exact .pure _
      | property node => exact frame.keeps_resolveProperty scope node
      | wildcard position stream => exact frame.keeps_resolveWildcard scope position stream
      | substitution node => exact frame.keeps_resolveSubstitution node
      | prior position index node => exact frame.keeps_resolvePrior scope position index node
      | table node => exact frame.keeps_resolveTable ih node
      | call node => exact frame.keeps_resolveCall ih node
      | subquery position statement => exact frame.keeps_resolveSubquery _ position statement
      | math operator left right =>
          exact (ih frame scope left).bind (fun _ => (ih frame scope right).bind (fun _ => .pure _))
      | compare operator left right =>
          exact (ih frame scope left).bind (fun _ => (ih frame scope right).bind (fun _ => .pure _))
      | and left right =>
          exact (ih frame scope left).bind (fun _ => (ih frame scope right).bind (fun _ => .pure _))
      | or left right =>
          exact (ih frame scope left).bind (fun _ => (ih frame scope right).bind (fun _ => .pure _))
      | not inner => exact (ih frame scope inner).bind (fun _ => .pure _)

end EventQuery
