import EventQuery.Proofs.Resolution.Referents
import EventQuery.Proofs.Specification.Clauses
import EventQuery.Proofs.Symbols.Listing

set_option autoImplicit false

/-! Every variable, table access and look at prior events that a resolved tree contains was
recorded when it was resolved. A resolved argument stands at many places by the time its statement
is finished, so the invariant covers the values of the parameters in scope as well. -/

namespace EventQuery

open Resolution

namespace Listing

variable {listing : Listing} {services : Services} {handlers : List Handler}

private theorem lists_of_typed {origin node : Resolved} (run : origin.typed handlers = .ok node)
    (listed : listing.Lists services origin) : listing.Lists services node := by
  cases origin with
  | table access keys type =>
      obtain ⟨_, _, rfl⟩ := Resolved.typed_table_iff.mp run
      exact listed
  | aggregation site position result =>
      obtain ⟨_, rfl, _⟩ := Resolved.typed_aggregation run
      trivial
  | declared name body =>
      obtain ⟨_, _, rfl⟩ := Resolved.typed_declared_iff.mp run
      trivial
  | script called arguments =>
      obtain ⟨_, _, rfl⟩ := Resolved.typed_script_iff.mp run
      trivial
  | math operator left right position type =>
      obtain ⟨_, _, _, _, _, _, rfl⟩ := Resolved.typed_math_iff.mp run
      trivial
  | compare operator left right position =>
      obtain ⟨_, _, _, _, _, rfl⟩ := Resolved.typed_compare_iff.mp run
      trivial
  | and left right =>
      obtain ⟨_, _, _, _, _, _, rfl⟩ := Resolved.typed_and_iff.mp run
      trivial
  | or left right =>
      obtain ⟨_, _, _, _, _, _, rfl⟩ := Resolved.typed_or_iff.mp run
      trivial
  | not inner =>
      obtain ⟨_, _, _, rfl⟩ := Resolved.typed_not_iff.mp run
      trivial
  | _ =>
      cases run
      exact listed

theorem listsAll_of_typed {tree tree' : Resolved} (run : tree.typed handlers = .ok tree')
    (listed : listing.ListsAll services tree) : listing.ListsAll services tree' := by
  intro node member
  obtain ⟨origin, inside, becomes⟩ := Resolved.mem_nodes_of_typed tree run member
  exact lists_of_typed becomes (listed origin inside)

theorem listsAll_of_typedAll {trees trees' : List Resolved}
    (run : Resolved.typedAll handlers trees = .ok trees')
    (listed : ∀ tree ∈ trees, listing.ListsAll services tree) :
    ∀ tree ∈ trees', listing.ListsAll services tree := by
  induction trees generalizing trees' with
  | nil =>
      cases run
      exact List.forall_mem_nil _
  | cons tree trees ih =>
      obtain ⟨tree', rest, head, tail, rfl⟩ := Resolved.typedAll_cons_iff.mp run
      have first := listsAll_of_typed head (listed tree List.mem_cons_self)
      have others := ih tail (fun other member => listed other (List.mem_cons_of_mem _ member))
      exact List.forall_mem_cons.mpr ⟨first, others⟩

theorem listsAll_of_checkedKeys {node : TableAccess} {table : TableDefinition}
    {columns : List String} {trees keys : List Resolved}
    (checked : CheckedKeys node table columns trees keys)
    (listed : ∀ tree ∈ trees, listing.ListsAll services tree) :
    ∀ key ∈ keys, listing.ListsAll services key :=
  listsAll_of_typedAll checked.typed.1 listed

theorem listsAll_leaf {tree : Resolved} (alone : tree.nodes = [tree])
    (listed : listing.Lists services tree) : listing.ListsAll services tree := by
  intro node member
  rw [alone, List.mem_singleton] at member
  rw [member]
  exact listed

theorem listsAll_above {tree : Resolved} {below : List Resolved}
    (whole : tree.nodes = tree :: Resolved.nodesOfAll below)
    (listed : listing.Lists services tree)
    (each : ∀ part ∈ below, listing.ListsAll services part) : listing.ListsAll services tree := by
  intro node member
  rw [whole] at member
  rcases List.mem_cons.mp member with rfl | deeper
  · exact listed
  · obtain ⟨part, inside, among⟩ := Resolved.mem_nodesOfAll_iff.mp deeper
    exact each part inside node among

theorem listsAll_around {tree inner : Resolved} (whole : tree.nodes = tree :: inner.nodes)
    (listed : listing.Lists services tree) (deeper : listing.ListsAll services inner) :
    listing.ListsAll services tree := by
  intro node member
  rw [whole] at member
  rcases List.mem_cons.mp member with rfl | below
  · exact listed
  · exact deeper node below

theorem listsAll_pair {tree left right : Resolved}
    (whole : tree.nodes = tree :: (left.nodes ++ right.nodes))
    (listed : listing.Lists services tree) (first : listing.ListsAll services left)
    (second : listing.ListsAll services right) : listing.ListsAll services tree := by
  intro node member
  rw [whole] at member
  rcases List.mem_cons.mp member with rfl | below
  · exact listed
  · rcases List.mem_append.mp below with inLeft | inRight
    · exact first node inLeft
    · exact second node inRight

end Listing

/-- The listing grows, and whatever the subqueries of a statement list stays in it. -/
structure Progress.Gains (before after : Progress) : Prop where
  listing : before.symbols.listing.Grows after.symbols.listing
  subqueries : (∀ inner ∈ before.subqueries, before.symbols.listing.Includes inner.listing) →
    ∀ inner ∈ after.subqueries, after.symbols.listing.Includes inner.listing

namespace Progress.Gains

variable {first second third before after : Progress}

theorem trans (early : first.Gains second) (late : second.Gains third) : first.Gains third where
  listing := early.listing.trans late.listing
  subqueries included := late.subqueries (early.subqueries included)

theorem of_listing (grows : before.symbols.listing.Grows after.symbols.listing)
    (same : after.subqueries = before.subqueries) : before.Gains after where
  listing := grows
  subqueries := by
    intro included inner member
    rw [same] at member
    exact grows.toIncludes.trans (included inner member)

theorem refl (progress : Progress) : progress.Gains progress :=
  of_listing (.refl _) rfl

theorem of_resolveProperty {frame : Frame} {scope : Scope} {node : PropertyNode}
    {tree : Resolved} (run : Yields (frame.resolveProperty scope node) before tree after) :
    before.Gains after := by
  rcases Frame.yields_resolveProperty run with ⟨_, _, rfl⟩ | ⟨_, ⟨_, _, _, read⟩ | ⟨_, _, rfl⟩⟩
  · exact .refl _
  · obtain ⟨_, _, _, _, rfl⟩ := Frame.yields_resolveStreamProperty_iff.mp read
    exact .of_listing (.refl _) rfl
  · exact .of_listing (SymbolContext.grows_recordVariable _ _) rfl

theorem of_resolvePrior {frame : Frame} {scope : Scope} {position : Option Position}
    {index : Nat} {node : PropertyNode} {tree : Resolved}
    (run : Yields (frame.resolvePrior scope position index node) before tree after) :
    before.Gains after := by
  obtain ⟨_, _, _, between, property, _, rfl⟩ := Frame.yields_resolvePrior_iff.mp run
  exact (of_resolveProperty property).trans (.of_listing (SymbolContext.grows_setPrior _) rfl)

theorem of_resolveForge {frame : Frame} {family : FunctionFamily} {position : Option Position}
    {forge : Forge} (run : Yields (frame.resolveForge family position) before forge after) :
    before.Gains after := by
  obtain ⟨_, ⟨_, rfl⟩ | ⟨_, rfl⟩⟩ := Frame.yields_resolveForge run
  · exact .of_listing (.refl _) rfl
  · exact .of_listing (.refl _) rfl

theorem of_subquery {services : Services} {order : Nat → List Nat} {isSubquery : Bool}
    {statement : Statement} {symbols : SymbolContext} {memory : CompilerMemory}
    {spec : StatementSpec} {inner progress : Progress}
    (derived : Compiles services order isSubquery statement symbols memory spec inner) :
    progress.Gains (progress.afterSubquery spec inner.symbols inner.memory) where
  listing := SymbolContext.grows_merge _ _
  subqueries := by
    intro included other member
    rcases List.mem_append.mp member with earlier | last
    · have known := included other earlier
      exact (SymbolContext.grows_merge _ _).toIncludes.trans known
    · rw [List.mem_singleton.mp last]
      obtain ⟨_, _, _, concluded⟩ := derived
      obtain ⟨_, _, _, _, rfl, _⟩ := yields_conclude concluded
      have own := SymbolContext.includes_merge progress.symbols inner.symbols
      exact own.trans (SymbolContext.includes_foldInto rfl rfl)

end Progress.Gains

mutual

theorem Resolves.gains {frame : Frame} {scope : Scope} {expression : Expression}
    {tree : Resolved} {before after : Progress} :
    Resolves frame scope expression before tree after → before.Gains after
  | .constant => .refl _
  | .property run => .of_resolveProperty run
  | .wildcard run => by
      obtain ⟨rfl, _⟩ := Frame.yields_resolveWildcard run
      exact .refl _
  | .substitution run => by
      obtain ⟨_, _, rfl⟩ := Frame.yields_resolveSubstitution run
      exact .of_listing (.refl _) rfl
  | .prior run => .of_resolvePrior run
  | .table _ _ given _ _ =>
      given.gains.trans (.of_listing (SymbolContext.grows_recordTable _ _) rfl)
  | .declared _ _ _ given inner => given.gains.trans inner.gains
  | .script _ _ given => given.gains
  | .aggregation _ _ _ _ _ _ created given _ _ =>
      ((Progress.Gains.of_resolveForge created).trans given.gains).trans
        (.of_listing (.refl _) rfl)
  | .subquery _ derived => .of_subquery derived
  | .math left right => left.gains.trans right.gains
  | .compare left right => left.gains.trans right.gains
  | .and left right => left.gains.trans right.gains
  | .or left right => left.gains.trans right.gains
  | .not inner => inner.gains

theorem ResolvesAll.gains {frame : Frame} {items : List (Scope × Expression)}
    {trees : List Resolved} {before after : Progress} :
    ResolvesAll frame items before trees after → before.Gains after
  | .nil => .refl _
  | .cons head tail => head.gains.trans tail.gains

end

/-- Everything in a tree that is to be recorded has been recorded. -/
def Progress.Records (progress : Progress) (services : Services) (tree : Resolved) : Prop :=
  progress.symbols.listing.ListsAll services tree

def Progress.RecordsScope (progress : Progress) (services : Services) (scope : Scope) : Prop :=
  ∀ entry ∈ scope.bindings, progress.Records services entry.2

namespace Progress

variable {before after : Progress} {services : Services}

theorem Records.mono {tree : Resolved} (recorded : before.Records services tree)
    (gains : before.Gains after) : after.Records services tree :=
  Listing.ListsAll.mono recorded gains.listing

theorem RecordsScope.mono {scope : Scope} (recorded : before.RecordsScope services scope)
    (gains : before.Gains after) : after.RecordsScope services scope :=
  fun entry member => (recorded entry member).mono gains

end Progress

theorem Frame.records_of_resolveProperty {frame : Frame} {scope : Scope} {node : PropertyNode}
    {tree : Resolved} {before after : Progress}
    (bound : before.RecordsScope frame.services scope)
    (run : Yields (frame.resolveProperty scope node) before tree after) :
    after.Records frame.services tree := by
  rcases Frame.yields_resolveProperty_iff.mp run with parameter | denoted
  · obtain ⟨_, found, rfl⟩ := parameter
    exact bound (node.path, tree) (Entries.mem_of_lookup found)
  · obtain ⟨_, referent, found, followed⟩ := denoted
    rw [Frame.yields_follow_iff] at followed
    cases referent with
    | «variable» definition =>
        obtain ⟨rfl, rfl⟩ := followed
        refine Listing.listsAll_leaf rfl ⟨SymbolContext.mem_recordVariable _ _, definition, ?_, rfl⟩
        exact Frame.variableNamed?_of_denoted found
    | read stream path =>
        obtain ⟨_, _, _, rfl, _⟩ := Frame.yields_resolveStreamProperty_iff.mp followed
        exact Listing.listsAll_leaf rfl trivial
    | blamed stream path =>
        obtain ⟨_, _, _, rfl, _⟩ := Frame.yields_resolveStreamProperty_iff.mp followed
        exact Listing.listsAll_leaf rfl trivial

mutual

theorem Resolves.records {frame : Frame} {scope : Scope} {expression : Expression}
    {tree : Resolved} {before after : Progress} :
    Resolves frame scope expression before tree after →
      before.RecordsScope frame.services scope → after.Records frame.services tree
  | .constant, _ => Listing.listsAll_leaf rfl trivial
  | .property run, bound => Frame.records_of_resolveProperty bound run
  | .wildcard run, _ => by
      obtain ⟨_, _, _, _, rfl⟩ := Frame.yields_resolveWildcard run
      exact Listing.listsAll_leaf rfl trivial
  | .substitution run, _ => by
      obtain ⟨rfl, _⟩ := Frame.yields_resolveSubstitution run
      exact Listing.listsAll_leaf rfl trivial
  | .prior run, _ => by
      obtain ⟨_, _, _, _, _, rfl, rfl⟩ := Frame.yields_resolvePrior_iff.mp run
      exact Listing.listsAll_leaf rfl rfl
  | .table _ _ given checked _, bound => by
      have keys := Listing.listsAll_of_checkedKeys checked
        (given.records (Scope.forall_each bound))
      refine Listing.listsAll_above rfl (SymbolContext.listed_recordTable _ _) ?_
      intro key member
      exact (keys key member).mono (SymbolContext.grows_recordTable _ _)
  | .declared _ _ _ given inner, bound => by
      have arguments := given.records (Scope.forall_each bound)
      exact Listing.listsAll_around rfl trivial (inner.records (Scope.forall_entering arguments))
  | .script _ _ given, bound =>
      Listing.listsAll_above rfl trivial (given.records (Scope.forall_each bound))
  | .aggregation _ _ _ _ _ _ _ _ _ _, _ => Listing.listsAll_leaf rfl trivial
  | .subquery _ _, _ => Listing.listsAll_leaf rfl trivial
  | .math left right, bound =>
      Listing.listsAll_pair rfl trivial ((left.records bound).mono right.gains)
        (right.records (bound.mono left.gains))
  | .compare left right, bound =>
      Listing.listsAll_pair rfl trivial ((left.records bound).mono right.gains)
        (right.records (bound.mono left.gains))
  | .and left right, bound =>
      Listing.listsAll_pair rfl trivial ((left.records bound).mono right.gains)
        (right.records (bound.mono left.gains))
  | .or left right, bound =>
      Listing.listsAll_pair rfl trivial ((left.records bound).mono right.gains)
        (right.records (bound.mono left.gains))
  | .not inner, bound => Listing.listsAll_around rfl trivial (inner.records bound)

theorem ResolvesAll.records {frame : Frame} {items : List (Scope × Expression)}
    {trees : List Resolved} {before after : Progress} :
    ResolvesAll frame items before trees after →
      (∀ item ∈ items, before.RecordsScope frame.services item.1) →
      ∀ tree ∈ trees, after.Records frame.services tree
  | .nil, _ => List.forall_mem_nil _
  | .cons head tail, bound => by
      have first := (head.records (bound _ List.mem_cons_self)).mono tail.gains
      have others := tail.records
        (fun item member => (bound item (List.mem_cons_of_mem _ member)).mono head.gains)
      exact List.forall_mem_cons.mpr ⟨first, others⟩

end

/-- The spec lists the variables, tables and looks at prior events of its clauses, and the
variables and tables of its subqueries. -/
structure StatementSpec.Recorded (spec : StatementSpec) (services : Services) : Prop where
  nodes : ∀ node ∈ spec.nodes, spec.listing.Lists services node
  subqueries : ∀ inner ∈ spec.subqueries, spec.listing.Includes inner.listing

theorem ResolvedClauses.mem_trees_of_clause {clauses : ResolvedClauses} {clause : Clause}
    {tree : Resolved} (member : tree ∈ clauses.clause clause) : tree ∈ clauses.trees := by
  unfold trees
  simp only [List.mem_append]
  cases clause with
  | select => exact .inl (.inl (.inl member))
  | filter => exact .inl (.inl (.inr member))
  | groupBy => exact .inl (.inr member)
  | having => exact .inr member

theorem Compiles.recorded {services : Services} {order : Nat → List Nat} {isSubquery : Bool}
    {statement : Statement} {symbols : SymbolContext} {memory : CompilerMemory}
    {spec : StatementSpec} {finish : Progress}
    (derived : Compiles services order isSubquery statement symbols memory spec finish) :
    (finish.symbols.foldInto spec).Recorded services := by
  obtain ⟨_, given, _, concluded⟩ := derived
  obtain ⟨handlers, typed, _, filled, rfl, kept⟩ := yields_conclude concluded
  rw [kept]
  have unbound : ∀ item ∈ statement.items,
      (Progress.opening statement symbols memory).RecordsScope services item.1 := by
    intro item member
    obtain ⟨clause, same⟩ := Statement.scope_of_mem_items member
    rw [same]
    exact List.forall_mem_nil _
  have trees := given.records unbound
  constructor
  · intro node member
    obtain ⟨clause, among⟩ := StatementSpec.mem_nodes_iff.mp member
    rw [StatementSpec.clause_assemble] at among
    obtain ⟨tree, inClause, inside⟩ := Resolved.mem_nodesOfAll_iff.mp among
    have listed := Listing.listsAll_of_typedAll ((ResolvedClauses.typed_clause filled).1 clause)
      (fun tree member => trees tree (ResolvedClauses.mem_trees_of_clause member))
    exact (listed tree inClause node inside).mono SymbolContext.grows_foldInto
  · exact fun inner member => SymbolContext.grows_foldInto.toIncludes.trans
      (given.gains.subqueries (List.forall_mem_nil _) inner member)

end EventQuery
