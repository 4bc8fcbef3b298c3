import EventQuery.Proofs.Resolution.Growth
import EventQuery.Proofs.Resolution.Soundness
import EventQuery.Proofs.Specification.Typing

set_option autoImplicit false

/-! What may stand where. A wildcard needs a place within a parameter of an aggregation call, an
aggregation call needs a clause that admits it, and the keys of a table access are checked when
the access is resolved. A resolved argument is carried to other places through the scope, so the
values of the parameters in scope are part of the invariant. -/

namespace EventQuery

open Resolution

/-- The type of a key comes from its operands and is comparable to that of its column. -/
structure TableDefinition.Fits (table : TableDefinition) (column : String) (key : Resolved) :
    Prop where
  consistent : key.Consistent
  comparable : key.valueType.comparable (table.keyType column) = true

namespace Scope

variable {services : Services} {scope : Scope}

/-- A node is admitted at a place, whatever is below it. -/
def Admits (services : Services) (scope : Scope) : Resolved → Prop
  | .wildcard _ _ => scope.inAggregation = true
  | .aggregation _ _ result => result = none ∧ scope.clause ≠ .filter ∧ scope.clause ≠ .groupBy
  | .table node keys _ => ∃ table, services.table? node.table = some table ∧
      List.Forall₂ table.Fits table.keys keys
  | _ => True

def AdmitsAll (services : Services) (scope : Scope) (tree : Resolved) : Prop :=
  ∀ node ∈ tree.nodes, scope.Admits services node

def Settled (services : Services) (scope : Scope) : Prop :=
  ∀ entry ∈ scope.bindings, scope.AdmitsAll services entry.2

theorem admitsAll_leaf {tree : Resolved} (alone : tree.nodes = [tree])
    (admitted : scope.Admits services tree) : scope.AdmitsAll services tree := by
  intro node member
  rw [alone, List.mem_singleton] at member
  rwa [member]

theorem admitsAll_node {tree : Resolved} {below : List Resolved}
    (whole : tree.nodes = tree :: below) (admitted : scope.Admits services tree)
    (rest : ∀ node ∈ below, scope.Admits services node) : scope.AdmitsAll services tree := by
  intro node member
  rw [whole] at member
  rcases List.mem_cons.mp member with rfl | inside
  · exact admitted
  · exact rest node inside

theorem admits_nodesOfAll {trees : List Resolved}
    (admitted : ∀ tree ∈ trees, scope.AdmitsAll services tree) :
    ∀ node ∈ Resolved.nodesOfAll trees, scope.Admits services node := by
  induction trees with
  | nil => exact List.forall_mem_nil _
  | cons tree trees ih =>
      intro node member
      rcases List.mem_append.mp member with first | later
      · exact admitted tree List.mem_cons_self node first
      · exact ih (fun other inside => admitted other (List.mem_cons_of_mem _ inside)) node later

theorem admits_pair {left right : Resolved} (first : scope.AdmitsAll services left)
    (second : scope.AdmitsAll services right) :
    ∀ node ∈ left.nodes ++ right.nodes, scope.Admits services node := by
  intro node member
  rcases List.mem_append.mp member with onLeft | onRight
  · exact first node onLeft
  · exact second node onRight

theorem admitsAll_each {expressions : List Expression} {trees : List Resolved}
    (admitted : List.Forall₂ (fun item tree => item.1.AdmitsAll services tree)
      (scope.each expressions) trees) : ∀ tree ∈ trees, scope.AdmitsAll services tree := by
  induction expressions generalizing trees with
  | nil =>
      cases admitted
      exact List.forall_mem_nil _
  | cons expression expressions ih =>
      cases admitted with
      | cons first rest => exact List.forall_mem_cons.mpr ⟨first, ih rest⟩

theorem settled_items {statement : Statement} :
    ∀ item ∈ statement.items, item.1.Settled services := by
  rintro ⟨scope, expression⟩ member
  obtain ⟨clause, rfl⟩ := Statement.scope_of_mem_items member
  exact List.forall_mem_nil _

end Scope

section

variable {services : Services} {scope : Scope} {node : TableAccess} {table : TableDefinition}

theorem Frame.checkedKey_ok_iff {column : String} {tree key : Resolved} :
    Frame.checkedKey node table column tree = .ok key ↔ Resolved.typed [] tree = .ok key ∧
      key.valueType.comparable (table.keyType column) = true := by
  unfold Frame.checkedKey
  rw [Checked.bind_eq_ok_iff]
  constructor
  · rintro ⟨typed, filled, rest⟩
    split at rest
    · rename_i comparable
      cases Checked.pure_eq_ok_iff.mp rest
      exact ⟨filled, comparable⟩
    · cases rest
  · rintro ⟨filled, comparable⟩
    refine ⟨key, filled, ?_⟩
    rw [if_pos comparable]
    rfl

theorem CheckedKeys.typed {columns : List String} {trees keys : List Resolved}
    (checked : CheckedKeys node table columns trees keys) :
    Resolved.typedAll [] trees = .ok keys ∧ List.Forall₂ table.Fits columns keys := by
  induction checked with
  | nil => exact ⟨rfl, .nil⟩
  | cons ok _ ih =>
      obtain ⟨filled, comparable⟩ := Frame.checkedKey_ok_iff.mp ok
      have fits : table.Fits _ _ := ⟨Resolved.consistent_of_typed _ filled, comparable⟩
      exact ⟨Resolved.typedAll_cons_iff.mpr ⟨_, _, filled, ih.1, rfl⟩, .cons fits ih.2⟩

private theorem fits_typedAll_nil {columns : List String} {keys keys' : List Resolved}
    (fits : List.Forall₂ table.Fits columns keys)
    (run : Resolved.typedAll [] keys = .ok keys') : List.Forall₂ table.Fits columns keys' := by
  induction fits generalizing keys' with
  | nil =>
      cases run
      exact .nil
  | cons fit _ ih =>
      obtain ⟨key', rest, typed, others, rfl⟩ := Resolved.typedAll_cons_iff.mp run
      refine .cons ⟨Resolved.consistent_of_typed _ typed, ?_⟩ (ih others)
      rw [Resolved.valueType_of_typed_nil _ fit.consistent typed]
      exact fit.comparable

theorem Scope.Admits.typed_nil {origin tree : Resolved} (admitted : scope.Admits services origin)
    (run : Resolved.typed [] origin = .ok tree) : scope.Admits services tree := by
  have source := Resolved.origin_of_typed run
  cases tree with
  | wildcard stream type =>
      cases source
      exact admitted
  | aggregation site position result =>
      obtain ⟨earlier, rfl, same⟩ := source
      rw [same rfl]
      exact admitted
  | table access keys type =>
      obtain ⟨earlier, rfl, typed⟩ := source
      obtain ⟨table, known, fits⟩ := admitted
      exact ⟨table, known, fits_typedAll_nil fits typed⟩
  | _ => trivial

theorem Scope.admitsAll_table {trees keys : List Resolved} {type : AttributeType}
    (known : services.table? node.table = some table)
    (checked : CheckedKeys node table table.keys trees keys)
    (admitted : ∀ tree ∈ trees, scope.AdmitsAll services tree) :
    scope.AdmitsAll services (.table node keys type) := by
  obtain ⟨typed, fits⟩ := checked.typed
  refine admitsAll_node rfl ⟨table, known, fits⟩ (fun inner member => ?_)
  obtain ⟨origin, inside, becomes⟩ := Resolved.mem_nodesOfAll_of_typedAll trees typed member
  exact (admits_nodesOfAll admitted origin inside).typed_nil becomes

end

section

variable {frame : Frame} {scope : Scope} {before after : Progress} {tree : Resolved}

private theorem admitsAll_of_resolveProperty {node : PropertyNode}
    (settled : scope.Settled frame.services)
    (run : Yields (frame.resolveProperty scope node) before tree after) :
    scope.AdmitsAll frame.services tree := by
  rcases Frame.yields_resolveProperty run with ⟨_, found, rfl⟩ |
    ⟨_, ⟨stream, _, path, read⟩ | ⟨definition, rfl, rfl⟩⟩
  · exact settled (node.path, tree) (Entries.mem_of_lookup found)
  · obtain ⟨compiled, getters, _, rfl, rfl⟩ := Frame.yields_resolveStreamProperty_iff.mp read
    exact Scope.admitsAll_leaf rfl trivial
  · exact Scope.admitsAll_leaf rfl trivial

private theorem admitsAll_of_resolveWildcard {position : Option Position} {name : Option String}
    (run : Yields (frame.resolveWildcard scope position name) before tree after) :
    scope.AdmitsAll frame.services tree := by
  obtain ⟨inside, _, _, rfl, _⟩ := Frame.yields_resolveWildcard_iff.mp run
  exact Scope.admitsAll_leaf rfl inside

end

mutual

/-- Whatever an expression is resolved to is admitted where the expression stands. -/
theorem Resolves.admitted {frame : Frame} {scope : Scope} {expression : Expression}
    {tree : Resolved} {before after : Progress} :
    Resolves frame scope expression before tree after → scope.Settled frame.services →
      scope.AdmitsAll frame.services tree
  | .constant, _ => Scope.admitsAll_leaf rfl trivial
  | .property run, settled => admitsAll_of_resolveProperty settled run
  | .wildcard run, _ => admitsAll_of_resolveWildcard run
  | .substitution run, _ => by
      obtain ⟨rfl, _⟩ := Frame.yields_resolveSubstitution run
      exact Scope.admitsAll_leaf rfl trivial
  | .prior run, _ => by
      obtain ⟨_, _, _, _, _, rfl, rfl⟩ := Frame.yields_resolvePrior_iff.mp run
      exact Scope.admitsAll_leaf rfl trivial
  | .table known _ given checked _, settled =>
      Scope.admitsAll_table known checked
        (Scope.admitsAll_each (given.admitted (Scope.forall_each settled)))
  | .declared _ _ _ given inner, settled => by
      have arguments := Scope.admitsAll_each (given.admitted (Scope.forall_each settled))
      have body := inner.admitted (Scope.forall_entering arguments)
      exact Scope.admitsAll_node rfl trivial body
  | .script _ _ given, settled => by
      have arguments := Scope.admitsAll_each (given.admitted (Scope.forall_each settled))
      exact Scope.admitsAll_node rfl trivial (Scope.admits_nodesOfAll arguments)
  | .aggregation _ _ _ notFilter notGroupBy _ _ _ _ _, _ =>
      Scope.admitsAll_leaf rfl ⟨rfl, notFilter, notGroupBy⟩
  | .subquery _ _, _ => Scope.admitsAll_leaf rfl trivial
  | .math left right, settled =>
      Scope.admitsAll_node rfl trivial
        (Scope.admits_pair (left.admitted settled) (right.admitted settled))
  | .compare left right, settled =>
      Scope.admitsAll_node rfl trivial
        (Scope.admits_pair (left.admitted settled) (right.admitted settled))
  | .and left right, settled =>
      Scope.admitsAll_node rfl trivial
        (Scope.admits_pair (left.admitted settled) (right.admitted settled))
  | .or left right, settled =>
      Scope.admitsAll_node rfl trivial
        (Scope.admits_pair (left.admitted settled) (right.admitted settled))
  | .not inner, settled => Scope.admitsAll_node rfl trivial (inner.admitted settled)

theorem ResolvesAll.admitted {frame : Frame} {items : List (Scope × Expression)}
    {trees : List Resolved} {before after : Progress} :
    ResolvesAll frame items before trees after →
      (∀ item ∈ items, item.1.Settled frame.services) →
      List.Forall₂ (fun item tree => item.1.AdmitsAll frame.services tree) items trees
  | .nil, _ => .nil
  | .cons head tail, settled =>
      .cons (head.admitted (settled _ List.mem_cons_self))
        (tail.admitted (fun item member => settled item (List.mem_cons_of_mem _ member)))

end

end EventQuery
