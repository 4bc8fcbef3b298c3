import EventQuery.Proofs.Resolution.Derivation
import EventQuery.Proofs.Resolution.Leaves
import EventQuery.Proofs.Resolution.Retention

set_option autoImplicit false

/-! While a statement is resolved its progress only grows: positions that were handed out stay
valid, forges stay registered, and what the statement declares does not change. -/

namespace EventQuery

open Resolution

private theorem SymbolContext.kept_opened {α : Type} (field : SymbolContext → α)
    (named : ∀ symbols name, field (symbols.setContextName name) = field symbols)
    (declared : ∀ symbols declaration, field (symbols.addDeclaration declaration) = field symbols)
    (scripted : ∀ symbols script, field (symbols.addScript script) = field symbols)
    (symbols : SymbolContext) (statement : Statement) :
    field (symbols.opened statement) = field symbols := by
  have scripts (symbols : SymbolContext) (scripts : List Script) :
      field (scripts.foldl SymbolContext.addScript symbols) = field symbols := by
    induction scripts generalizing symbols with
    | nil => rfl
    | cons script scripts ih => exact (ih _).trans (scripted symbols script)
  have declarations (symbols : SymbolContext) (declarations : List Declaration) :
      field (symbols.addDeclarations declarations) = field symbols := by
    induction declarations generalizing symbols with
    | nil => rfl
    | cons declaration declarations ih => exact (ih _).trans (declared symbols declaration)
  exact ((scripts _ _).trans (declarations _ _)).trans (named _ _)

theorem SymbolContext.forges_opened (symbols : SymbolContext) (statement : Statement) :
    (symbols.opened statement).forges = symbols.forges :=
  kept_opened forges (fun _ _ => rfl) (fun _ _ => rfl) (fun _ _ => rfl) symbols statement

theorem SymbolContext.substitutions_opened (symbols : SymbolContext) (statement : Statement) :
    (symbols.opened statement).substitutions = symbols.substitutions :=
  kept_opened substitutions (fun _ _ => rfl) (fun _ _ => rfl) (fun _ _ => rfl) symbols statement

theorem SymbolContext.hasPrior_opened (symbols : SymbolContext) (statement : Statement) :
    (symbols.opened statement).hasPrior = symbols.hasPrior :=
  kept_opened hasPrior (fun _ _ => rfl) (fun _ _ => rfl) (fun _ _ => rfl) symbols statement

theorem SymbolContext.declarations_opened (symbols : SymbolContext) (statement : Statement) :
    (symbols.opened statement).declarations =
      (symbols.addDeclarations statement.declarations).declarations := by
  have scripts (scripts : List Script) (symbols : SymbolContext) :
      (scripts.foldl SymbolContext.addScript symbols).declarations = symbols.declarations := by
    induction scripts generalizing symbols with
    | nil => rfl
    | cons script scripts ih => exact ih _
  have named (declarations : List Declaration) (first second : SymbolContext)
      (same : first.declarations = second.declarations) :
      (first.addDeclarations declarations).declarations =
        (second.addDeclarations declarations).declarations := by
    induction declarations generalizing first second with
    | nil => exact same
    | cons declaration declarations ih =>
        refine ih _ _ ?_
        simp only [SymbolContext.addDeclaration, same]
  exact (scripts _ _).trans (named _ _ _ rfl)

theorem SymbolContext.scripts_opened (symbols : SymbolContext) (statement : Statement) :
    (symbols.opened statement).scripts = symbols.scripts ++ statement.scripts := by
  have added (symbols : SymbolContext) (scripts : List Script) :
      (scripts.foldl SymbolContext.addScript symbols).scripts = symbols.scripts ++ scripts := by
    induction scripts generalizing symbols with
    | nil => exact (List.append_nil _).symm
    | cons script scripts ih => exact (ih _).trans (List.append_assoc _ _ _)
  have kept (symbols : SymbolContext) (declarations : List Declaration) :
      (symbols.addDeclarations declarations).scripts = symbols.scripts := by
    induction declarations generalizing symbols with
    | nil => rfl
    | cons declaration declarations ih => exact ih _
  exact (added _ _).trans (congrArg (· ++ statement.scripts) (kept _ _))

theorem SymbolContext.registeredForges_opened (symbols : SymbolContext) (statement : Statement) :
    (symbols.opened statement).registeredForges = symbols.registeredForges := by
  unfold registeredForges
  rw [forges_opened]

theorem SymbolContext.forge?_addForge_self (symbols : SymbolContext) (key : AggregationKey)
    (forge : Forge) : (symbols.addForge key forge).forge? key = some forge :=
  Entries.lookup_put_self _ key forge

namespace Frame

variable {frame : Frame} {scope : Scope} {before after : Progress} {tree : Resolved}

theorem extends_of_resolveProperty {node : PropertyNode}
    (run : Yields (frame.resolveProperty scope node) before tree after) :
    before.Extends after :=
  ((frame.keeps_resolveProperty scope node).of_yields run).toExtends

theorem extends_of_resolvePrior {position : Option Position} {index : Nat} {node : PropertyNode}
    (run : Yields (frame.resolvePrior scope position index node) before tree after) :
    before.Extends after :=
  ((frame.keeps_resolvePrior scope position index node).of_yields run).toExtends

theorem extends_of_resolveSubstitution {node : SubstitutionNode}
    (run : Yields (frame.resolveSubstitution node) before tree after) :
    before.Extends after :=
  ((frame.keeps_resolveSubstitution node).of_yields run).toExtends

theorem extends_of_resolveForge {family : FunctionFamily} {position : Option Position}
    {forge : Forge} (run : Yields (frame.resolveForge family position) before forge after) :
    before.Extends after :=
  ((frame.keeps_resolveForge family position).of_yields run).toExtends

theorem registered_of_resolveForge {family : FunctionFamily} {position : Option Position}
    {forge : Forge} (run : Yields (frame.resolveForge family position) before forge after) :
    after.symbols.forge? (.ofFamily family) = some forge := by
  obtain ⟨workshop, ⟨registered, rfl⟩ | ⟨_, rfl⟩⟩ := yields_resolveForge run
  · exact registered
  · exact SymbolContext.forge?_addForge_self _ _ _

end Frame

mutual

theorem Resolves.extends {frame : Frame} {scope : Scope} {expression : Expression}
    {tree : Resolved} {before after : Progress} :
    Resolves frame scope expression before tree after → before.Extends after
  | .constant => .refl _
  | .property run => Frame.extends_of_resolveProperty run
  | .wildcard run => by
      obtain ⟨rfl, _⟩ := Frame.yields_resolveWildcard run
      exact .refl _
  | .substitution run => Frame.extends_of_resolveSubstitution run
  | .prior run => Frame.extends_of_resolvePrior run
  | .table _ _ given _ _ => given.extends.trans { Progress.Extends.refl _ with }
  | .declared _ _ _ given inner => given.extends.trans inner.extends
  | .script _ _ given => given.extends
  | .aggregation _ _ _ _ _ _ created given _ added =>
      ((Frame.extends_of_resolveForge created).trans given.extends).trans
        (Progress.extends_of_add added)
  | .subquery _ _ =>
      { Progress.Extends.refl _ with subqueries := List.prefix_append _ _ }
  | .math left right => left.extends.trans right.extends
  | .compare left right => left.extends.trans right.extends
  | .and left right => left.extends.trans right.extends
  | .or left right => left.extends.trans right.extends
  | .not inner => inner.extends

theorem ResolvesAll.extends {frame : Frame} {items : List (Scope × Expression)}
    {trees : List Resolved} {before after : Progress} :
    ResolvesAll frame items before trees after → before.Extends after
  | .nil => .refl _
  | .cons head tail => head.extends.trans tail.extends

end

theorem ResolvesAll.split {frame : Frame} {done rest : List (Scope × Expression)} {scope : Scope}
    {expression : Expression} {trees : List Resolved} {before after : Progress}
    (derived : ResolvesAll frame (done ++ (scope, expression) :: rest) before trees after) :
    ∃ earlier tree later between further, trees = earlier ++ tree :: later ∧
      ResolvesAll frame done before earlier between ∧
      Resolves frame scope expression between tree further := by
  induction done generalizing before trees with
  | nil =>
      cases derived with
      | cons head tail => exact ⟨[], _, _, _, _, rfl, .nil, head⟩
  | cons item done ih =>
      cases derived with
      | cons head tail =>
          obtain ⟨earlier, tree, later, between, further, rfl, first, here⟩ := ih tail
          exact ⟨_ :: earlier, tree, later, between, further, rfl, .cons head first, here⟩

theorem CheckedKeys.of_append {node : TableAccess} {table : TableDefinition}
    {columns : List String} {earlier later keys : List Resolved}
    (checked : CheckedKeys node table columns (earlier ++ later) keys) :
    ∃ first some, first <+: columns ∧ CheckedKeys node table first earlier some := by
  induction earlier generalizing columns keys with
  | nil => exact ⟨[], [], List.nil_prefix, .nil⟩
  | cons tree earlier ih =>
      cases checked with
      | cons ok rest =>
          obtain ⟨first, some, isFirst, inner⟩ := ih rest
          exact ⟨_ :: first, _ :: some, List.cons_prefix_cons.mpr ⟨rfl, isFirst⟩, .cons ok inner⟩

theorem SeenAs.of_append {earlier later : List Resolved} {parameters : List AggregationParameter}
    (seen : SeenAs (earlier ++ later) parameters) : ∃ first, SeenAs earlier first := by
  have first := List.forall₂_take earlier.length seen
  rw [List.take_left'] at first
  · exact ⟨_, first⟩
  · rfl

end EventQuery
