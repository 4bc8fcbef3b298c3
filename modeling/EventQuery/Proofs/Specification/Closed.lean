import EventQuery.Proofs.Resolution.Growth
import EventQuery.Proofs.Resolution.Soundness
import EventQuery.Proofs.Specification.References

set_option autoImplicit false

/-! Compiled statements are closed. Positions are handed out while a statement is resolved and
are read only when it is finished, and a resolved argument may stand at many places by then; so
the invariant covers the progress, the trees and the values of the parameters in scope. -/

namespace EventQuery

open Resolution

namespace StatementSpec

/-- What a reference points to is there, and what the reference says about it is so. -/
def Covers (spec : StatementSpec) : Reference → Prop
  | .stream index => index < spec.streams.length
  | .slot index type => ∃ node, spec.substitutions[index]? = some node ∧
      type = node.declaredType.getD .object
  | .subquery index type => ∃ inner column, spec.subqueries[index]? = some inner ∧
      inner.select = [column] ∧ type = column.expression.valueType
  | .call site result => ∃ call, spec.aggregations[site]? = some call ∧
      result = some call.handler.resultType

/-- The state of an aggregation call and the forge that made its handler are in the spec. -/
structure Serves (spec : StatementSpec) (call : CompiledAggregation) : Prop where
  state : ∃ state, spec.states[call.slot]? = some state ∧ state.key = call.handler.stateKey
  forge : ∃ forge, spec.forges.lookup call.key = some forge

/-- Everything that a spec and its subqueries refer to by position is there. -/
inductive Closed : StatementSpec → Prop
  | intro {spec : StatementSpec} :
      (∀ node ∈ spec.nodes, ∀ reference ∈ node.reference?, spec.Covers reference) →
      (∀ call ∈ spec.aggregations, spec.Serves call) →
      (∀ inner ∈ spec.subqueries, inner.Closed) →
      spec.Closed

end StatementSpec

namespace Progress

def Covers (progress : Progress) (frame : Frame) : Reference → Prop
  | .stream index => index < frame.streams.length
  | .slot index type => ∃ node, progress.symbols.substitutions[index]? = some node ∧
      type = node.declaredType.getD .object
  | .subquery index type => ∃ inner column, progress.subqueries[index]? = some inner ∧
      inner.select = [column] ∧ type = column.expression.valueType
  | .call site _ => site < progress.calls.sites.length

def Knows (progress : Progress) (frame : Frame) (tree : Resolved) : Prop :=
  ∀ reference ∈ tree.references, progress.Covers frame reference

def KnowsScope (progress : Progress) (frame : Frame) (scope : Scope) : Prop :=
  ∀ entry ∈ scope.bindings, progress.Knows frame entry.2

/-- The subqueries are closed and every aggregation call has its forge. -/
structure Closed (progress : Progress) : Prop where
  subqueries : ∀ inner ∈ progress.subqueries, inner.Closed
  forges : ∀ site ∈ progress.calls.sites, ∃ forge, progress.symbols.forge? site.key = some forge

variable {frame : Frame} {before after : Progress}

private theorem getElem?_of_prefix {α : Type} {short long : List α} {index : Nat} {entry : α}
    (kept : short <+: long) (found : short[index]? = some entry) : long[index]? = some entry := by
  obtain ⟨inside, rfl⟩ := List.getElem?_eq_some_iff.mp found
  exact (List.prefix_iff_getElem?.mp kept) index inside

theorem Covers.mono (grown : before.Extends after) {reference : Reference}
    (covered : before.Covers frame reference) : after.Covers frame reference := by
  cases reference with
  | stream index => exact covered
  | slot index type =>
      obtain ⟨node, found, typed⟩ := covered
      exact ⟨node, getElem?_of_prefix grown.substitutions found, typed⟩
  | subquery index type =>
      obtain ⟨inner, column, found, selected⟩ := covered
      exact ⟨inner, column, getElem?_of_prefix grown.subqueries found, selected⟩
  | call site result => exact Nat.lt_of_lt_of_le covered grown.sites.length_le

theorem Knows.mono (grown : before.Extends after) {tree : Resolved}
    (known : before.Knows frame tree) : after.Knows frame tree :=
  fun reference member => (known reference member).mono grown

theorem KnowsScope.mono (grown : before.Extends after) {scope : Scope}
    (known : before.KnowsScope frame scope) : after.KnowsScope frame scope :=
  fun entry member => (known entry member).mono grown

theorem Closed.of_unchanged (closed : before.Closed) (grown : before.Extends after)
    (subqueries : after.subqueries = before.subqueries)
    (sites : after.calls.sites = before.calls.sites) : after.Closed where
  subqueries := by
    rw [subqueries]
    exact closed.subqueries
  forges := by
    rw [sites]
    intro site member
    obtain ⟨forge, registered⟩ := closed.forges site member
    exact ⟨forge, grown.forges _ _ registered⟩

theorem knows_all {tree : Resolved} {trees : List Resolved}
    (gathered : tree.references = Resolved.referencesOfAll trees)
    (known : ∀ tree ∈ trees, before.Knows frame tree) : before.Knows frame tree := by
  intro reference member
  rw [gathered, Resolved.mem_referencesOfAll] at member
  obtain ⟨part, inside, member⟩ := member
  exact known part inside reference member

theorem knows_single {tree : Resolved} {reference : Reference}
    (single : tree.references = [reference]) (covered : before.Covers frame reference) :
    before.Knows frame tree := by
  intro other member
  rw [single, List.mem_singleton] at member
  rwa [member]

theorem knows_none {tree : Resolved} (nothing : tree.references = []) :
    before.Knows frame tree := by
  intro reference member
  rw [nothing] at member
  cases member

end Progress

section

variable {frame : Frame} {scope : Scope} {before after : Progress} {tree : Resolved}

private theorem lt_of_mem_indexedStreams {binding : StreamBinding} {index : Nat}
    (member : (binding, index) ∈ frame.indexedStreams) : index < frame.streams.length := by
  obtain ⟨_, inside, _⟩ := List.mem_zipIdx member
  simpa using inside

private theorem known_of_resolveProperty {node : PropertyNode} (closed : before.Closed)
    (bound : before.KnowsScope frame scope)
    (run : Yields (frame.resolveProperty scope node) before tree after) :
    after.Closed ∧ after.Knows frame tree := by
  rcases Frame.yields_resolveProperty run with ⟨_, found, rfl⟩ |
    ⟨_, ⟨stream, member, path, read⟩ | ⟨definition, rfl, rfl⟩⟩
  · exact ⟨closed, bound (node.path, tree) (Entries.mem_of_lookup found)⟩
  · obtain ⟨compiled, getters, _, rfl, rfl⟩ := Frame.yields_resolveStreamProperty_iff.mp read
    exact ⟨⟨closed.subqueries, closed.forges⟩,
      Progress.knows_single rfl (lt_of_mem_indexedStreams member)⟩
  · exact ⟨⟨closed.subqueries, closed.forges⟩, Progress.knows_none rfl⟩

private theorem known_of_resolvePrior {position : Option Position} {index : Nat}
    {node : PropertyNode} (closed : before.Closed) (bound : before.KnowsScope frame scope)
    (run : Yields (frame.resolvePrior scope position index node) before tree after) :
    after.Closed ∧ after.Knows frame tree := by
  obtain ⟨stream, path, compiled, between, property, rfl, rfl⟩ :=
    Frame.yields_resolvePrior_iff.mp run
  obtain ⟨stillClosed, known⟩ := known_of_resolveProperty closed bound property
  refine ⟨⟨stillClosed.subqueries, stillClosed.forges⟩, Progress.knows_single rfl ?_⟩
  exact known (.stream stream) (List.mem_singleton.mpr rfl)

private theorem known_of_resolveSubstitution {node : SubstitutionNode} (closed : before.Closed)
    (run : Yields (frame.resolveSubstitution node) before tree after) :
    after.Closed ∧ after.Knows frame tree := by
  obtain ⟨rfl, style, rfl⟩ := Frame.yields_resolveSubstitution run
  refine ⟨⟨closed.subqueries, closed.forges⟩, Progress.knows_single rfl ⟨node, ?_, rfl⟩⟩
  exact List.getElem?_concat_length

end

private theorem knows_both {frame : Frame} {between after : Progress} {tree left right : Resolved}
    (split : tree.references = left.references ++ right.references)
    (first : between.Closed ∧ between.Knows frame left) (grown : between.Extends after)
    (second : after.Closed ∧ after.Knows frame right) :
    after.Closed ∧ after.Knows frame tree := by
  refine ⟨second.1, ?_⟩
  intro reference member
  rw [split, List.mem_append] at member
  rcases member with inLeft | inRight
  · exact first.2.mono grown reference inLeft
  · exact second.2 reference inRight

private theorem closed_of_resolveForge {frame : Frame} {family : FunctionFamily}
    {position : Option Position} {forge : Forge} {before after : Progress}
    (closed : before.Closed)
    (run : Yields (frame.resolveForge family position) before forge after) : after.Closed := by
  have kept := Frame.undisturbed_of_resolveForge run
  exact closed.of_unchanged (Frame.extends_of_resolveForge run) kept.subqueries
    (congrArg CallSites.sites kept.calls)

private theorem closed_of_add {progress : Progress} {site : CallSite} {index : Nat}
    {calls : CallSites} {forge : Forge} (closed : progress.Closed)
    (registered : progress.symbols.forge? site.key = some forge)
    (added : progress.calls.add site = .ok (index, calls)) :
    Progress.Closed { progress with calls := calls } where
  subqueries := closed.subqueries
  forges := by
    intro other member
    rw [(CallSites.sites_of_add added).2, List.mem_append, List.mem_singleton] at member
    rcases member with earlier | rfl
    · exact closed.forges other earlier
    · exact ⟨forge, registered⟩

private theorem knows_checkedKeys {frame : Frame} {progress : Progress} {node : TableAccess}
    {table : TableDefinition} {columns : List String} {trees keys : List Resolved}
    (checked : CheckedKeys node table columns trees keys)
    (known : ∀ tree ∈ trees, progress.Knows frame tree) :
    ∀ key ∈ keys, progress.Knows frame key := by
  intro key member reference inside
  have given : reference ∈ Resolved.referencesOfAll trees := by
    rw [← Resolved.referencesOfAll_of_checkedKeys checked]
    exact Resolved.mem_referencesOfAll.mpr ⟨key, member, inside⟩
  obtain ⟨tree, source, inside⟩ := Resolved.mem_referencesOfAll.mp given
  exact known tree source reference inside

/-! ### The end of a statement -/

section

variable {handlers : List Handler}

private theorem typedColumns_references {columns typed : List SelectColumn}
    (filled : typedColumns handlers columns = .ok typed) :
    typed.length = columns.length ∧
      Resolved.referencesOfAll (typed.map SelectColumn.expression) =
        (Resolved.referencesOfAll (columns.map SelectColumn.expression)).map
          (Reference.settled handlers) := by
  induction columns generalizing typed with
  | nil =>
      cases filled
      exact ⟨rfl, rfl⟩
  | cons column columns ih =>
      simp only [typedColumns, Checked.bind_eq_ok_iff, Checked.pure_eq_ok_iff] at filled
      obtain ⟨expression, first, rest, others, rfl⟩ := filled
      obtain ⟨count, references⟩ := ih others
      refine ⟨congrArg Nat.succ count, ?_⟩
      rw [List.map_cons, List.map_cons, Resolved.referencesOfAll_cons,
        Resolved.referencesOfAll_cons, List.map_append, references,
        Resolved.typed_references _ first]

private theorem typedCondition_references {clause : Clause} {condition typed : Option Resolved}
    (filled : typedCondition handlers clause condition = .ok typed) :
    Resolved.referencesOfAll typed.toList =
      (Resolved.referencesOfAll condition.toList).map (Reference.settled handlers) := by
  cases condition with
  | none =>
      cases filled
      rfl
  | some tree =>
      obtain ⟨tree', first, rest⟩ := Checked.bind_eq_ok_iff.mp filled
      split at rest
      · cases rest
        have all : Resolved.typedAll handlers [tree] = .ok [tree'] := by
          simp only [Resolved.typedAll, first]
          rfl
        exact Resolved.typedAll_references [tree] all
      · cases rest

theorem ResolvedClauses.typed_references {clauses typed : ResolvedClauses}
    (filled : clauses.typed handlers = .ok typed) :
    typed.select.length = clauses.select.length ∧
      Resolved.referencesOfAll typed.trees =
        (Resolved.referencesOfAll clauses.trees).map (Reference.settled handlers) := by
  simp only [ResolvedClauses.typed, Checked.bind_eq_ok_iff, Checked.pure_eq_ok_iff] at filled
  obtain ⟨select, selectFilled, groupBy, groupByFilled, filter, filterFilled, having,
    havingFilled, rfl⟩ := filled
  obtain ⟨count, selectReferences⟩ := typedColumns_references selectFilled
  refine ⟨count, ?_⟩
  simp only [ResolvedClauses.trees, Resolved.referencesOfAll_append, List.map_append,
    selectReferences, typedCondition_references filterFilled, typedCondition_references havingFilled,
    Resolved.typedAll_references _ groupByFilled]

end

private theorem closed_of_conclude {frame : Frame} {statement : Statement}
    {clauses : ResolvedClauses} {before after : Progress} {spec : StatementSpec}
    (closed : before.Closed) (known : ∀ tree ∈ clauses.trees, before.Knows frame tree)
    (run : Yields (frame.conclude statement clauses) before spec after) :
    (after.symbols.foldInto spec).Closed ∧ spec.select.length = clauses.select.length := by
  obtain ⟨handlers, typed, count, filled, rfl, symbols⟩ := yields_conclude run
  obtain ⟨columns, references⟩ := ResolvedClauses.typed_references filled
  rw [symbols]
  have handled := assignSlots_handlers [] (before.calls.sites.zip handlers)
  have keyed := assignSlots_keys [] (before.calls.sites.zip handlers)
  have slotted := assignSlots_slot [] (before.calls.sites.zip handlers)
  rw [List.map_snd_zip (Nat.le_of_eq count)] at handled
  refine ⟨.intro ?_ ?_ closed.subqueries, columns⟩
  · intro node member reference own
    have among : reference ∈ Resolved.referencesOfAll typed.trees :=
      List.mem_filterMap.mpr ⟨node, member, own⟩
    rw [references] at among
    obtain ⟨origin, inside, rfl⟩ := List.mem_map.mp among
    obtain ⟨tree, ofClause, inTree⟩ := Resolved.mem_referencesOfAll.mp inside
    have covered := known tree ofClause origin inTree
    cases origin with
    | stream index => exact covered
    | slot index type => exact covered
    | subquery index type => exact covered
    | call site result =>
        have answered : site < handlers.length := by
          rw [count]
          exact covered
        have entry := congrArg (fun list => list[site]?) handled
        simp only [List.getElem?_map, List.getElem?_eq_getElem answered,
          Option.map_eq_some_iff] at entry
        obtain ⟨call, found, same⟩ := entry
        refine ⟨call, found, ?_⟩
        rw [same, List.getElem?_eq_getElem answered]
        rfl
  · intro call member
    refine ⟨slotted call member, ?_⟩
    have among : call.key ∈ (before.calls.sites.zip handlers).map (fun pair => pair.1.key) := by
      rw [← keyed]
      exact List.mem_map_of_mem member
    obtain ⟨⟨site, handler⟩, paired, same⟩ := List.mem_map.mp among
    obtain ⟨forge, registered⟩ := closed.forges site (List.of_mem_zip paired).1
    refine ⟨forge, ?_⟩
    rw [← same]
    exact registered

private theorem closed_opening {statement : Statement} {symbols : SymbolContext}
    {memory : CompilerMemory} : (Progress.opening statement symbols memory).Closed where
  subqueries := List.forall_mem_nil _
  forges := List.forall_mem_nil _

private theorem knowsScope_items {frame : Frame} {statement : Statement} {progress : Progress} :
    ∀ item ∈ statement.items, progress.KnowsScope frame item.1 := by
  rintro ⟨scope, expression⟩ member
  obtain ⟨clause, rfl⟩ := Statement.scope_of_mem_items member
  exact List.forall_mem_nil _

/-! ### The invariant -/

mutual

theorem Resolves.known {frame : Frame} {scope : Scope} {expression : Expression}
    {tree : Resolved} {before after : Progress} :
    Resolves frame scope expression before tree after → before.Closed →
      before.KnowsScope frame scope → after.Closed ∧ after.Knows frame tree
  | .constant, closed, _ => ⟨closed, Progress.knows_none rfl⟩
  | .property run, closed, bound => known_of_resolveProperty closed bound run
  | .wildcard run, closed, _ => by
      obtain ⟨rfl, binding, index, member, rfl⟩ := Frame.yields_resolveWildcard run
      exact ⟨closed, Progress.knows_single rfl (lt_of_mem_indexedStreams member)⟩
  | .substitution run, closed, _ => known_of_resolveSubstitution closed run
  | .prior run, closed, bound => known_of_resolvePrior closed bound run
  | .table _ _ given checked _, closed, bound => by
      obtain ⟨stillClosed, known⟩ := given.known closed (Scope.forall_each bound)
      exact ⟨⟨stillClosed.subqueries, stillClosed.forges⟩,
        Progress.knows_all Resolved.references_table (knows_checkedKeys checked known)⟩
  | .declared _ _ _ given inner, closed, bound => by
      obtain ⟨stillClosed, known⟩ := given.known closed (Scope.forall_each bound)
      exact inner.known stillClosed (Scope.forall_entering known)
  | .script _ _ given, closed, bound => by
      obtain ⟨stillClosed, known⟩ := given.known closed (Scope.forall_each bound)
      exact ⟨stillClosed, Progress.knows_all Resolved.references_script known⟩
  | .aggregation _ _ _ _ _ _ created given _ added, closed, bound => by
      have grown := Frame.extends_of_resolveForge created
      have inside : Progress.KnowsScope _ frame scope.aggregated := bound.mono grown
      obtain ⟨stillClosed, _⟩ := given.known (closed_of_resolveForge closed created)
        (Scope.forall_each inside)
      have registered := given.extends.forges _ _ (Frame.registered_of_resolveForge created)
      obtain ⟨rfl, sites⟩ := CallSites.sites_of_add added
      refine ⟨closed_of_add stillClosed registered added, Progress.knows_single rfl ?_⟩
      show _ < _
      rw [sites, List.length_append, List.length_singleton]
      exact Nat.lt_succ_self _
  | .subquery single compiled, closed, _ => by
      obtain ⟨inner, columns⟩ := compiled.closed
      refine ⟨⟨?_, closed.forges⟩, Progress.knows_single rfl ?_⟩
      · intro other member
        rcases List.mem_append.mp member with earlier | last
        · exact closed.subqueries other earlier
        · rwa [List.mem_singleton.mp last]
      · obtain ⟨column, only⟩ := List.length_eq_one_iff.mp (columns.trans single)
        refine ⟨_, column, List.getElem?_concat_length, only, ?_⟩
        rw [StatementSpec.columnType, only]
        rfl
  | .math left right, closed, bound => by
      have first := left.known closed bound
      have second := right.known first.1 (bound.mono left.extends)
      exact knows_both Resolved.references_math first right.extends second
  | .compare left right, closed, bound => by
      have first := left.known closed bound
      have second := right.known first.1 (bound.mono left.extends)
      exact knows_both Resolved.references_compare first right.extends second
  | .and left right, closed, bound => by
      have first := left.known closed bound
      have second := right.known first.1 (bound.mono left.extends)
      exact knows_both Resolved.references_and first right.extends second
  | .or left right, closed, bound => by
      have first := left.known closed bound
      have second := right.known first.1 (bound.mono left.extends)
      exact knows_both Resolved.references_or first right.extends second
  | .not inner, closed, bound => by
      obtain ⟨stillClosed, known⟩ := inner.known closed bound
      refine ⟨stillClosed, ?_⟩
      unfold Progress.Knows
      rwa [Resolved.references_not]

theorem ResolvesAll.known {frame : Frame} {items : List (Scope × Expression)}
    {trees : List Resolved} {before after : Progress} :
    ResolvesAll frame items before trees after → before.Closed →
      (∀ item ∈ items, before.KnowsScope frame item.1) →
      after.Closed ∧ ∀ tree ∈ trees, after.Knows frame tree
  | .nil, closed, _ => ⟨closed, fun _ member => by cases member⟩
  | .cons head tail, closed, bound => by
      obtain ⟨headClosed, headKnown⟩ := head.known closed (bound _ List.mem_cons_self)
      obtain ⟨tailClosed, tailKnown⟩ := tail.known headClosed (fun item member =>
        (bound item (List.mem_cons_of_mem _ member)).mono head.extends)
      refine ⟨tailClosed, fun tree member => ?_⟩
      rcases List.mem_cons.mp member with rfl | later
      · exact headKnown.mono tail.extends
      · exact tailKnown tree later

theorem Compiles.closed {services : Services} {order : Nat → List Nat} {isSubquery : Bool}
    {statement : Statement} {symbols : SymbolContext} {memory : CompilerMemory}
    {spec : StatementSpec} {after : Progress} :
    Compiles services order isSubquery statement symbols memory spec after →
      (after.symbols.foldInto spec).Closed ∧ spec.select.length = statement.select.length
  | .intro bound given shaped concluded => by
      obtain ⟨stillClosed, known⟩ := given.known closed_opening knowsScope_items
      obtain ⟨closed, columns⟩ := closed_of_conclude stillClosed known concluded
      have named := congrArg List.length shaped.select
      rw [List.length_map, Statement.columnNames, List.length_map, List.length_zipIdx] at named
      exact ⟨closed, columns.trans named⟩

end

/-- Whatever a compilation gives, with any symbols of its caller, any memory and any order of
visits, refers to what is in it and to nothing else. -/
theorem Services.closed_of_compileWith {services : Services} {order : Nat → List Nat}
    {statement : Statement} {symbols : SymbolContext} {memory : CompilerMemory}
    {spec : StatementSpec}
    (compiled : (services.compileWith order statement symbols memory).result = .ok spec) :
    spec.Closed := by
  obtain ⟨bare, finish, derived, rfl⟩ := compiles_of_compileWith compiled
  exact derived.closed.1

def tradeServices : Services :=
  { Services.initial with registry := ⟨[.map "Trade" [⟨"price", .double, none⟩]]⟩ }

/-- The sum of a subquery with itself, all trades, and a substitution parameter. -/
def tradeStatement : Statement :=
  let trades : StreamSource := ⟨none, "Trade", none⟩
  let price : Expression := .property ⟨none, none, "price"⟩
  let operand : Expression := .property ⟨none, none, "x"⟩
  let anyPrice : Statement :=
    ⟨"price", none, none, [], [], [⟨price, none⟩], [trades], none, [], none⟩
  let doubled : Declaration := ⟨"doubled", ["x"], .math .add operand operand⟩
  let columns : List Expression :=
    [.call ⟨none, "doubled", false, [.subquery none anyPrice]⟩,
      .call ⟨none, "window", false, [.wildcard none none]⟩,
      .substitution ⟨none, none, some .int⟩]
  ⟨"s", none, none, [doubled], [], columns.map (fun column => ⟨column, none⟩), [trades], none, [],
    none⟩

set_option maxRecDepth 100000 in
theorem closed_tradeStatement :
    ∃ spec, (tradeServices.compileWith List.range tradeStatement .empty .empty).result =
        .ok spec ∧
      spec.aggregations.length = 1 ∧ spec.subqueries.length = 1 ∧
      spec.substitutions.length = 1 ∧ spec.Closed := by
  have compiled : ∃ spec, (tradeServices.compileWith List.range tradeStatement .empty
      .empty).result = .ok spec ∧ spec.aggregations.length = 1 ∧ spec.subqueries.length = 1 ∧
        spec.substitutions.length = 1 :=
    ⟨_, rfl, rfl, rfl, rfl⟩
  obtain ⟨spec, compiled, aggregations, subqueries, substitutions⟩ := compiled
  exact ⟨spec, compiled, aggregations, subqueries, substitutions,
    Services.closed_of_compileWith compiled⟩

end EventQuery
