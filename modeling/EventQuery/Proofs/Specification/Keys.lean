import EventQuery.Proofs.Specification.Clauses

set_option autoImplicit false

/-! The keys of table accesses in compiled statements. A key is compared with its column while the
aggregation calls in it count as objects, and it is not compared again when their types are
known; so a key fits its column in the end exactly if all calls that its type rests on do. -/

namespace EventQuery

namespace Resolved

variable {handlers : List Handler}

private theorem nodes_subset_of_below {tree part : Resolved} {below : List Resolved}
    (whole : tree.nodes = tree :: below) (inner : part ∈ below → part.nodes ⊆ below)
    (member : part ∈ tree.nodes) : part.nodes ⊆ tree.nodes := by
  rw [whole] at member
  rcases List.mem_cons.mp member with rfl | inside
  · exact List.Subset.refl _
  · rw [whole]
    exact List.Subset.trans (inner inside) (List.subset_cons_self _ _)

private theorem nodes_subset_of_pair {left right part : Resolved}
    (first : part ∈ left.nodes → part.nodes ⊆ left.nodes)
    (second : part ∈ right.nodes → part.nodes ⊆ right.nodes)
    (member : part ∈ left.nodes ++ right.nodes) : part.nodes ⊆ left.nodes ++ right.nodes := by
  rcases List.mem_append.mp member with onLeft | onRight
  · exact List.Subset.trans (first onLeft) (List.subset_append_left _ _)
  · exact List.Subset.trans (second onRight) (List.subset_append_right _ _)

mutual

theorem nodes_subset_of_mem :
    (tree : Resolved) → {part : Resolved} → part ∈ tree.nodes → part.nodes ⊆ tree.nodes
  | constant _, _, member => nodes_subset_of_below rfl (fun nothing => nomatch nothing) member
  | property _ _ _, _, member => nodes_subset_of_below rfl (fun nothing => nomatch nothing) member
  | wildcard _ _, _, member => nodes_subset_of_below rfl (fun nothing => nomatch nothing) member
  | .variable _ _, _, member => nodes_subset_of_below rfl (fun nothing => nomatch nothing) member
  | substitution _ _, _, member =>
      nodes_subset_of_below rfl (fun nothing => nomatch nothing) member
  | prior _ _ _, _, member => nodes_subset_of_below rfl (fun nothing => nomatch nothing) member
  | subquery _ _, _, member => nodes_subset_of_below rfl (fun nothing => nomatch nothing) member
  | aggregation _ _ _, _, member =>
      nodes_subset_of_below rfl (fun nothing => nomatch nothing) member
  | table _ keys _, _, member => nodes_subset_of_below rfl (nodesOfAll_subset_of_mem keys) member
  | declared _ body, _, member => nodes_subset_of_below rfl (nodes_subset_of_mem body) member
  | script _ arguments, _, member =>
      nodes_subset_of_below rfl (nodesOfAll_subset_of_mem arguments) member
  | math _ left right _ _, _, member =>
      nodes_subset_of_below rfl
        (nodes_subset_of_pair (nodes_subset_of_mem left) (nodes_subset_of_mem right)) member
  | compare _ left right _, _, member =>
      nodes_subset_of_below rfl
        (nodes_subset_of_pair (nodes_subset_of_mem left) (nodes_subset_of_mem right)) member
  | and left right, _, member =>
      nodes_subset_of_below rfl
        (nodes_subset_of_pair (nodes_subset_of_mem left) (nodes_subset_of_mem right)) member
  | or left right, _, member =>
      nodes_subset_of_below rfl
        (nodes_subset_of_pair (nodes_subset_of_mem left) (nodes_subset_of_mem right)) member
  | not inner, _, member => nodes_subset_of_below rfl (nodes_subset_of_mem inner) member

theorem nodesOfAll_subset_of_mem :
    (trees : List Resolved) → {part : Resolved} → part ∈ nodesOfAll trees →
      part.nodes ⊆ nodesOfAll trees
  | [], _, member => nomatch member
  | tree :: trees, _, member => by
      rcases List.mem_append.mp member with first | later
      · exact List.Subset.trans (nodes_subset_of_mem tree first) (List.subset_append_left _ _)
      · exact List.Subset.trans (nodesOfAll_subset_of_mem trees later)
          (List.subset_append_right _ _)

end

/-- A key of an admitted table access holds no answered aggregation call. -/
theorem unanswered_of_admitsAll {services : Services} {scope : Scope} {node : TableAccess}
    {keys : List Resolved} {type : AttributeType}
    (admitted : scope.AdmitsAll services (table node keys type)) :
    ∀ key ∈ keys, key.Unanswered := by
  intro key member site position result inside
  have below : aggregation site position result ∈ nodesOfAll keys :=
    mem_nodesOfAll_iff.mpr ⟨key, member, inside⟩
  exact (admitted _ (List.mem_cons_of_mem _ below)).1

theorem comparable_typedAll_iff {table : TableDefinition} {columns : List String}
    {origins keys : List Resolved} (fits : List.Forall₂ table.Fits columns origins)
    (unanswered : ∀ key ∈ origins, key.Unanswered)
    (typed : typedAll handlers origins = .ok keys) :
    List.Forall₂ (fun column key => key.valueType.comparable (table.keyType column) = true ↔
      ∀ type ∈ key.callTypes, type.comparable (table.keyType column) = true) columns keys := by
  induction fits generalizing keys with
  | nil =>
      cases typed
      exact .nil
  | @cons column origin columns origins fit _ ih =>
      obtain ⟨key, rest, first, others, rfl⟩ := typedAll_cons_iff.mp typed
      have here := comparable_typed_iff origin fit.consistent
        (unanswered origin List.mem_cons_self) first fit.comparable
      exact .cons here (ih (fun other member => unanswered other (List.mem_cons_of_mem _ member))
        others)

end Resolved

namespace Services

/-- A table access has one key for each key column of its table, and a key is comparable to its
column exactly if all aggregation calls that the type of the key rests on are. -/
def MatchesKeys (services : Services) (node : TableAccess) (keys : List Resolved) : Prop :=
  ∃ table, services.table? node.table = some table ∧ keys.length = table.keys.length ∧
    ∀ (index : Nat) (column : String) (key : Resolved),
      table.keys[index]? = some column → keys[index]? = some key →
      (key.valueType.comparable (table.keyType column) = true ↔
        ∀ type ∈ key.callTypes, type.comparable (table.keyType column) = true)

variable {services : Services} {spec : StatementSpec}

theorem matchesKeys_of_compiledWith (compiled : spec.CompiledWith services) {node : TableAccess}
    {keys : List Resolved} {type : AttributeType}
    (member : Resolved.table node keys type ∈ spec.nodes) : services.MatchesKeys node keys := by
  obtain ⟨clause, inside⟩ := StatementSpec.mem_nodes_iff.mp member
  obtain ⟨⟨handlers, each⟩, _⟩ := compiled.clause
  obtain ⟨origins, filled, admitted⟩ := each clause
  obtain ⟨origin, among, becomes⟩ := Resolved.mem_nodesOfAll_of_typedAll origins filled inside
  obtain ⟨earlier, rfl, typed⟩ := Resolved.origin_of_typed becomes
  have whole : (Scope.ofClause clause).AdmitsAll services (.table node earlier type) := by
    intro part below
    exact Scope.admits_nodesOfAll admitted part
      (Resolved.nodesOfAll_subset_of_mem origins among below)
  obtain ⟨table, known, fits⟩ := whole _ List.mem_cons_self
  have settled := Resolved.comparable_typedAll_iff fits
    (Resolved.unanswered_of_admitsAll whole) typed
  refine ⟨table, known, settled.length_eq.symm, ?_⟩
  intro index column key atColumn atKey
  obtain ⟨columnInside, rfl⟩ := List.getElem?_eq_some_iff.mp atColumn
  obtain ⟨keyInside, rfl⟩ := List.getElem?_eq_some_iff.mp atKey
  exact settled.get columnInside keyInside

/-- In a compiled statement and in all of its subqueries there is one key for each key column of a
table, and a key is comparable to its column exactly if the results of all aggregation calls that
its type rests on are. -/
theorem matchesKeys_of_compileWith {order : Nat → List Nat} {statement : Statement}
    {symbols : SymbolContext} {memory : CompilerMemory}
    (compiled : (services.compileWith order statement symbols memory).result = .ok spec) :
    ∀ (inner : StatementSpec) (node : TableAccess) (keys : List Resolved) (type : AttributeType),
      inner.Within spec → Resolved.table node keys type ∈ inner.nodes →
      services.MatchesKeys node keys := by
  intro inner node keys type within member
  exact matchesKeys_of_compiledWith
    ((compiledWith_of_compileWith compiled).within within) member

/-- Trades, and a table whose only key column has a given type. -/
def keyed (type : AttributeType) : Services :=
  { tradeServices with tables := [⟨"T", [⟨"k", type⟩], ["k"]⟩] }

def lastPriceAccess : TableAccess :=
  let price : Expression := .property ⟨none, none, "price"⟩
  ⟨0, none, "T", [.call ⟨none, "last", false, [price]⟩], none⟩

def lastPriceRow : Statement :=
  { Statement.selecting "s" (.table lastPriceAccess) with streams := [⟨none, "Trade", none⟩] }

set_option maxRecDepth 100000 in
theorem matchesKeys_lastPriceRow :
    ∃ spec, ((keyed .double).compileWith List.range lastPriceRow .empty .empty).result = .ok spec ∧
      ∀ (inner : StatementSpec) (node : TableAccess) (keys : List Resolved) (type : AttributeType),
        inner.Within spec → Resolved.table node keys type ∈ inner.nodes →
        (keyed .double).MatchesKeys node keys := by
  have compiled : ∃ spec, ((keyed .double).compileWith List.range lastPriceRow .empty
      .empty).result = .ok spec :=
    ⟨_, rfl⟩
  obtain ⟨spec, compiled⟩ := compiled
  exact ⟨spec, compiled, matchesKeys_of_compileWith compiled⟩

set_option maxRecDepth 100000 in
/-- The last price, a number, passes as the key of a column of strings. -/
theorem lastPrice_not_comparable :
    ∃ spec key type,
      ((keyed .string).compileWith List.range lastPriceRow .empty .empty).result = .ok spec ∧
      Resolved.table lastPriceAccess [key] type ∈ spec.nodes ∧
      ∃ table, (keyed .string).table? lastPriceAccess.table = some table ∧ table.keys = ["k"] ∧
        key.valueType.comparable (table.keyType "k") = false := by
  let key : Resolved := .aggregation 0 none (some (.scalar .double))
  have compiled : ∃ spec, ((keyed .string).compileWith List.range lastPriceRow .empty
      .empty).result = .ok spec ∧ spec.clauses = [.table lastPriceAccess [key] .object] :=
    ⟨_, rfl, rfl⟩
  obtain ⟨spec, compiled, clauses⟩ := compiled
  refine ⟨spec, key, .object, compiled, ?_, _, rfl, rfl, rfl⟩
  unfold StatementSpec.nodes
  rw [clauses]
  exact List.mem_cons_self

end Services

end EventQuery
