import EventQuery.Aggregation.CallSites
import EventQuery.Compile.Resolve
import EventQuery.Proofs.Checked

set_option autoImplicit false

/-! The streams of a statement under other numbers. Everything that refers to a stream by its
position is told under the new numbers; names, types and getters stay. -/

namespace EventQuery

variable (renumber : Nat → Nat)

namespace Resolved

mutual

def restreamed : Resolved → Resolved
  | property stream path compiled => property (renumber stream) path compiled
  | wildcard stream type => wildcard (renumber stream) type
  | prior index stream compiled => prior index (renumber stream) compiled
  | table node keys type => table node (restreamedAll keys) type
  | declared name body => declared name (restreamed body)
  | script called arguments => script called (restreamedAll arguments)
  | math operator left right position type =>
      math operator (restreamed left) (restreamed right) position type
  | compare operator left right position =>
      compare operator (restreamed left) (restreamed right) position
  | and left right => and (restreamed left) (restreamed right)
  | or left right => or (restreamed left) (restreamed right)
  | not inner => not (restreamed inner)
  | leaf => leaf
termination_by structural tree => tree

def restreamedAll : List Resolved → List Resolved
  | [] => []
  | tree :: rest => restreamed tree :: restreamedAll rest
termination_by structural trees => trees

end

theorem restreamedAll_eq_map (trees : List Resolved) :
    restreamedAll renumber trees = trees.map (restreamed renumber) := by
  induction trees with
  | nil => rfl
  | cons tree trees ih => rw [restreamedAll, ih, List.map_cons]

@[simp] theorem valueType_restreamed (tree : Resolved) :
    (tree.restreamed renumber).valueType = tree.valueType := by
  induction tree using Resolved.valueType.induct with
  | case8 name body ih => exact ih
  | _ => rfl

mutual

theorem restreamed_id : (tree : Resolved) → tree.restreamed id = tree
  | property _ _ _ => rfl
  | wildcard _ _ => rfl
  | prior _ _ _ => rfl
  | table _ keys _ => by rw [restreamed, restreamedAll_id keys]
  | declared _ body => by rw [restreamed, restreamed_id body]
  | script _ arguments => by rw [restreamed, restreamedAll_id arguments]
  | math _ left right _ _ => by rw [restreamed, restreamed_id left, restreamed_id right]
  | compare _ left right _ => by rw [restreamed, restreamed_id left, restreamed_id right]
  | and left right => by rw [restreamed, restreamed_id left, restreamed_id right]
  | or left right => by rw [restreamed, restreamed_id left, restreamed_id right]
  | not inner => by rw [restreamed, restreamed_id inner]
  | constant _ => rfl
  | .variable _ _ => rfl
  | substitution _ _ => rfl
  | aggregation _ _ _ => rfl
  | subquery _ _ => rfl

theorem restreamedAll_id : (trees : List Resolved) → restreamedAll id trees = trees
  | [] => rfl
  | tree :: trees => by rw [restreamedAll, restreamed_id tree, restreamedAll_id trees]

end

end Resolved

def StateSeed.restreamed : StateSeed → StateSeed
  | .collect stream => .collect (renumber stream)
  | .tally => .tally

/-- The key of the state that is made from a seed; only the key of a collecting state names its
stream. -/
def StateKey.restreamed (key : StateKey) : StateSeed → StateKey
  | .collect stream => Collect.stateKey (renumber stream)
  | .tally => key

def Handler.restreamed (handler : Handler) : Handler :=
  { handler with
    seed := handler.seed.restreamed renumber
    stateKey := handler.stateKey.restreamed renumber handler.seed }

def StateSlot.restreamed (slot : StateSlot) : StateSlot where
  key := slot.key.restreamed renumber slot.seed
  seed := slot.seed.restreamed renumber

def CompiledAggregation.restreamed (call : CompiledAggregation) : CompiledAggregation :=
  { call with handler := call.handler.restreamed renumber }

def AggregationParameter.restreamed : AggregationParameter → AggregationParameter
  | .stream index type => .stream (renumber index) type
  | .property index path compiled => .property (renumber index) path compiled
  | .value type => .value type

def CallSite.restreamed (site : CallSite) : CallSite :=
  { site with parameters := site.parameters.map (AggregationParameter.restreamed renumber) }

def CallSites.restreamed (calls : CallSites) : CallSites :=
  { calls with sites := calls.sites.map (CallSite.restreamed renumber) }

theorem CallSites.restreamed_id (calls : CallSites) : calls.restreamed id = calls := by
  have parameter : AggregationParameter.restreamed id = id := by
    funext parameter
    cases parameter <;> rfl
  have site : CallSite.restreamed id = id := by
    funext site
    unfold CallSite.restreamed
    rw [parameter, List.map_id]
    rfl
  unfold CallSites.restreamed
  rw [site, List.map_id]

theorem CallSites.add_restreamed {calls extended : CallSites} {site : CallSite} {index : Nat}
    (added : calls.add site = .ok (index, extended)) :
    (calls.restreamed renumber).add (site.restreamed renumber) =
      .ok (index, extended.restreamed renumber) := by
  unfold CallSites.add at added ⊢
  by_cases collecting : calls.phase = .collecting
  · rw [if_pos collecting] at added
    cases added
    have still : (calls.restreamed renumber).phase = .collecting := collecting
    rw [if_pos still]
    unfold CallSites.restreamed
    simp only [List.length_map, List.map_append, List.map_cons, List.map_nil]
  · rw [if_neg collecting] at added
    cases added

def Scope.restreamed (scope : Scope) : Scope :=
  { scope with
    bindings := scope.bindings.map (fun entry => (entry.1, entry.2.restreamed renumber)) }

def SelectColumn.restreamed (column : SelectColumn) : SelectColumn :=
  { column with expression := column.expression.restreamed renumber }

def ResolvedClauses.restreamed (clauses : ResolvedClauses) : ResolvedClauses where
  select := clauses.select.map (SelectColumn.restreamed renumber)
  filter := clauses.filter.map (Resolved.restreamed renumber)
  groupBy := clauses.groupBy.map (Resolved.restreamed renumber)
  having := clauses.having.map (Resolved.restreamed renumber)

theorem ResolvedClauses.restreamed_id (clauses : ResolvedClauses) :
    clauses.restreamed id = clauses := by
  have tree : Resolved.restreamed id = id := funext Resolved.restreamed_id
  have column : SelectColumn.restreamed id = id := by
    funext column
    unfold SelectColumn.restreamed
    rw [tree]
    rfl
  unfold ResolvedClauses.restreamed
  rw [tree, column]
  simp only [List.map_id, Option.map_id_fun, id_eq]

/-- The spec with other streams, to whose numbers everything of its own refers. Its subqueries
have streams of their own. -/
def StatementSpec.restreamed (streams : List StreamBinding) (spec : StatementSpec) :
    StatementSpec :=
  { spec with
    streams := streams
    select := spec.select.map (SelectColumn.restreamed renumber)
    filter := spec.filter.map (Resolved.restreamed renumber)
    groupBy := spec.groupBy.map (Resolved.restreamed renumber)
    having := spec.having.map (Resolved.restreamed renumber)
    aggregations := spec.aggregations.map (CompiledAggregation.restreamed renumber)
    states := spec.states.map (StateSlot.restreamed renumber) }

/-! ### Typing -/

namespace Resolved

theorem checkOperand_restreamed (operator : String) (operand : Resolved) :
    checkOperand operator (operand.restreamed renumber) = checkOperand operator operand := by
  unfold checkOperand
  rw [valueType_restreamed]

variable {renumber} (handlers : List Handler)

mutual

theorem typed_restreamed : (tree : Resolved) →
    typed (handlers.map (Handler.restreamed renumber)) (tree.restreamed renumber) =
      (typed handlers tree).map (restreamed renumber)
  | aggregation site position result => by
      have kept : restreamed renumber (aggregation site position result) =
          aggregation site position result := rfl
      rw [kept, typed, typed, List.getElem?_map]
      cases handlers[site]? with
      | none => rfl
      | some handler => rfl
  | table node keys type => by
      rw [restreamed, typed, typed, typedAll_restreamed keys]
      cases typedAll handlers keys <;> rfl
  | declared name body => by
      rw [restreamed, typed, typed, typed_restreamed body]
      cases typed handlers body <;> rfl
  | script called arguments => by
      rw [restreamed, typed, typed, typedAll_restreamed arguments]
      cases typedAll handlers arguments <;> rfl
  | math operator left right position type => by
      rw [restreamed, typed, typed, typed_restreamed left, typed_restreamed right]
      cases typed handlers left with
      | error failure => rfl
      | ok left' =>
          cases typed handlers right with
          | error failure => rfl
          | ok right' =>
              simp only [Except.map, Bind.bind, Except.bind, valueType_restreamed]
              cases left'.valueType.arithmetic? right'.valueType <;> rfl
  | compare operator left right position => by
      rw [restreamed, typed, typed, typed_restreamed left, typed_restreamed right]
      cases typed handlers left with
      | error failure => rfl
      | ok left' =>
          cases typed handlers right with
          | error failure => rfl
          | ok right' =>
              simp only [Except.map, Bind.bind, Except.bind, valueType_restreamed]
              cases left'.valueType.comparable right'.valueType <;> rfl
  | and left right => by
      rw [restreamed, typed, typed, typed_restreamed left, typed_restreamed right]
      cases typed handlers left with
      | error failure => rfl
      | ok left' =>
          simp only [Except.map, Bind.bind, Except.bind, checkOperand_restreamed]
          cases checkOperand "logical operator" left' with
          | error failure => rfl
          | ok _ =>
              cases typed handlers right with
              | error failure => rfl
              | ok right' =>
                  simp only [checkOperand_restreamed]
                  cases checkOperand "logical operator" right' <;> rfl
  | or left right => by
      rw [restreamed, typed, typed, typed_restreamed left, typed_restreamed right]
      cases typed handlers left with
      | error failure => rfl
      | ok left' =>
          simp only [Except.map, Bind.bind, Except.bind, checkOperand_restreamed]
          cases checkOperand "logical operator" left' with
          | error failure => rfl
          | ok _ =>
              cases typed handlers right with
              | error failure => rfl
              | ok right' =>
                  simp only [checkOperand_restreamed]
                  cases checkOperand "logical operator" right' <;> rfl
  | not inner => by
      rw [restreamed, typed, typed, typed_restreamed inner]
      cases typed handlers inner with
      | error failure => rfl
      | ok inner' =>
          simp only [Except.map, Bind.bind, Except.bind, checkOperand_restreamed]
          cases checkOperand "not" inner' <;> rfl
  | property _ _ _ => rfl
  | wildcard _ _ => rfl
  | prior _ _ _ => rfl
  | constant _ => rfl
  | .variable _ _ => rfl
  | substitution _ _ => rfl
  | subquery _ _ => rfl

theorem typedAll_restreamed : (trees : List Resolved) →
    typedAll (handlers.map (Handler.restreamed renumber)) (restreamedAll renumber trees) =
      (typedAll handlers trees).map (restreamedAll renumber)
  | [] => rfl
  | tree :: trees => by
      rw [restreamedAll, typedAll, typedAll, typed_restreamed tree, typedAll_restreamed trees]
      cases typed handlers tree with
      | error failure => rfl
      | ok first => cases typedAll handlers trees <;> rfl

end

end Resolved

namespace Frame

theorem checkedKey_restreamed {node : TableAccess} {table : TableDefinition} {column : String}
    {key checked : Resolved} (accepted : checkedKey node table column key = .ok checked) :
    checkedKey node table column (key.restreamed renumber) =
      .ok (checked.restreamed renumber) := by
  unfold checkedKey at accepted ⊢
  have typing : (key.restreamed renumber).typed [] = (key.typed []).map _ :=
    Resolved.typed_restreamed [] key
  rw [typing]
  cases typed : key.typed [] with
  | error failure =>
      rw [typed] at accepted
      cases accepted
  | ok tree =>
      rw [typed] at accepted
      simp only [Except.map, Bind.bind, Except.bind, Resolved.valueType_restreamed] at accepted ⊢
      split at accepted
      · rename_i comparable
        rw [if_pos comparable]
        cases accepted
        rfl
      · cases accepted

theorem aggregationParameter_restreamed (tree : Resolved) :
    aggregationParameter (tree.restreamed renumber) =
      (aggregationParameter tree).map (AggregationParameter.restreamed renumber) := by
  have valued {other : Resolved}
      (own : aggregationParameter other =
        (other.typed []).map (fun typed => .value typed.valueType))
      (moved : aggregationParameter (other.restreamed renumber) =
        ((other.restreamed renumber).typed []).map (fun typed => .value typed.valueType)) :
      aggregationParameter (other.restreamed renumber) =
        (aggregationParameter other).map (AggregationParameter.restreamed renumber) := by
    have typing : (other.restreamed renumber).typed [] = (other.typed []).map _ :=
      Resolved.typed_restreamed [] other
    rw [own, moved, typing]
    cases other.typed [] with
    | error failure => rfl
    | ok typed =>
        simp only [Except.map, Resolved.valueType_restreamed]
        rfl
  cases tree with
  | wildcard stream type => rfl
  | property stream path compiled => rfl
  | _ => exact valued rfl rfl

end Frame

theorem typedCondition_restreamed {handlers : List Handler} {clause : Clause}
    {condition typed : Option Resolved}
    (accepted : typedCondition handlers clause condition = .ok typed) :
    typedCondition (handlers.map (Handler.restreamed renumber)) clause
        (condition.map (Resolved.restreamed renumber)) =
      .ok (typed.map (Resolved.restreamed renumber)) := by
  cases condition with
  | none =>
      cases accepted
      rfl
  | some condition =>
      obtain ⟨tree, found, rest⟩ := Checked.bind_eq_ok_iff.mp accepted
      refine Checked.bind_eq_ok_iff.mpr ⟨tree.restreamed renumber, ?_, ?_⟩
      · rw [Resolved.typed_restreamed, found]
        rfl
      · rw [Resolved.valueType_restreamed]
        split at rest
        · rename_i truth
          rw [if_pos truth]
          cases rest
          rfl
        · cases rest

theorem typedColumns_restreamed {handlers : List Handler} {columns typed : List SelectColumn}
    (accepted : typedColumns handlers columns = .ok typed) :
    typedColumns (handlers.map (Handler.restreamed renumber))
        (columns.map (SelectColumn.restreamed renumber)) =
      .ok (typed.map (SelectColumn.restreamed renumber)) := by
  induction columns generalizing typed with
  | nil =>
      cases accepted
      rfl
  | cons column columns ih =>
      obtain ⟨tree, found, rest⟩ := Checked.bind_eq_ok_iff.mp accepted
      obtain ⟨others, foundRest, last⟩ := Checked.bind_eq_ok_iff.mp rest
      cases last
      refine Checked.bind_eq_ok_iff.mpr ⟨tree.restreamed renumber, ?_, ?_⟩
      · have typing := @Resolved.typed_restreamed renumber handlers column.expression
        rw [found] at typing
        exact typing
      · exact Checked.bind_eq_ok_iff.mpr ⟨_, ih foundRest, rfl⟩

theorem ResolvedClauses.typed_restreamed {handlers : List Handler}
    {clauses typed : ResolvedClauses} (accepted : clauses.typed handlers = .ok typed) :
    (clauses.restreamed renumber).typed (handlers.map (Handler.restreamed renumber)) =
      .ok (typed.restreamed renumber) := by
  unfold ResolvedClauses.typed at accepted ⊢
  obtain ⟨select, columns, rest⟩ := Checked.bind_eq_ok_iff.mp accepted
  obtain ⟨groupBy, groups, rest⟩ := Checked.bind_eq_ok_iff.mp rest
  obtain ⟨filter, filtered, rest⟩ := Checked.bind_eq_ok_iff.mp rest
  obtain ⟨having, had, last⟩ := Checked.bind_eq_ok_iff.mp rest
  cases last
  refine Checked.bind_eq_ok_iff.mpr ⟨_, typedColumns_restreamed renumber columns, ?_⟩
  refine Checked.bind_eq_ok_iff.mpr ⟨groupBy.map (Resolved.restreamed renumber), ?_, ?_⟩
  · have typing := @Resolved.typedAll_restreamed renumber handlers clauses.groupBy
    rw [groups, Resolved.restreamedAll_eq_map] at typing
    refine typing.trans ?_
    rw [Except.map, Resolved.restreamedAll_eq_map]
  · refine Checked.bind_eq_ok_iff.mpr ⟨_, typedCondition_restreamed renumber filtered, ?_⟩
    exact Checked.bind_eq_ok_iff.mpr ⟨_, typedCondition_restreamed renumber had, rfl⟩

end EventQuery
