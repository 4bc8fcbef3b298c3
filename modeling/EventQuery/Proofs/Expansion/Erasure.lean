import EventQuery.Proofs.Resolution.Derivation
import EventQuery.Proofs.Specification.Placement

set_option autoImplicit false

/-! Trees without the places of their operators and without the nodes of their table accesses. Two
trees that are the same without them have the same types and are typed alike. -/

namespace EventQuery

def TableAccess.erased (node : TableAccess) : TableAccess :=
  ⟨0, none, node.table, [], node.column⟩

theorem TableAccess.erased_eq_iff {node other : TableAccess} :
    other.erased = node.erased ↔ other.table = node.table ∧ other.column = node.column := by
  unfold erased
  rw [TableAccess.mk.injEq]
  simp only [true_and]

namespace Resolved

mutual

def erased : Resolved → Resolved
  | table node keys type => table node.erased (erasedAll keys) type
  | declared name body => declared name (erased body)
  | script called arguments => script called (erasedAll arguments)
  | aggregation site _ result => aggregation site none result
  | math operator left right _ type => math operator (erased left) (erased right) none type
  | compare operator left right _ => compare operator (erased left) (erased right) none
  | and left right => and (erased left) (erased right)
  | or left right => or (erased left) (erased right)
  | not inner => not (erased inner)
  | leaf => leaf
termination_by structural tree => tree

def erasedAll : List Resolved → List Resolved
  | [] => []
  | tree :: rest => erased tree :: erasedAll rest
termination_by structural trees => trees

end

theorem erasedAll_of_alike {trees others : List Resolved}
    (alike : List.Forall₂ (fun tree other => other.erased = tree.erased) trees others) :
    erasedAll others = erasedAll trees := by
  induction alike with
  | nil => rfl
  | cons head _ ih => rw [erasedAll, erasedAll, head, ih]

@[simp] theorem valueType_erased (tree : Resolved) : tree.erased.valueType = tree.valueType := by
  induction tree using Resolved.valueType.induct with
  | case8 name body ih => exact ih
  | _ => rfl

theorem valueType_of_erased {tree other : Resolved} (alike : other.erased = tree.erased) :
    other.valueType = tree.valueType := by
  rw [← valueType_erased other, alike, valueType_erased]

theorem checkOperand_erased (operator : String) (operand : Resolved) :
    checkOperand operator operand.erased = checkOperand operator operand := by
  unfold checkOperand
  rw [valueType_erased]

variable (handlers : List Handler)

mutual

/-- Only failures tell places, so nothing that is erased decides whether a tree is typed. -/
theorem typed_erased : (tree : Resolved) →
    (typed handlers tree.erased).toOption = (typed handlers tree).toOption.map erased
  | aggregation site position result => by
      rw [erased, typed, typed]
      cases handlers[site]? <;> rfl
  | table node keys type => by
      rw [erased, typed, typed, Checked.toOption_bind, Checked.toOption_bind,
        typedAll_erased keys]
      cases (typedAll handlers keys).toOption <;> rfl
  | declared name body => by
      rw [erased, typed, typed, Checked.toOption_bind, Checked.toOption_bind, typed_erased body]
      cases (typed handlers body).toOption <;> rfl
  | script called arguments => by
      rw [erased, typed, typed, Checked.toOption_bind, Checked.toOption_bind,
        typedAll_erased arguments]
      cases (typedAll handlers arguments).toOption <;> rfl
  | math operator left right position type => by
      rw [erased, typed, typed]
      simp only [Checked.toOption_bind, typed_erased left, typed_erased right]
      cases (typed handlers left).toOption with
      | none => rfl
      | some left' =>
          cases (typed handlers right).toOption with
          | none => rfl
          | some right' =>
              simp only [Option.map_some, Option.bind_some, valueType_erased]
              cases left'.valueType.arithmetic? right'.valueType <;> rfl
  | compare operator left right position => by
      rw [erased, typed, typed]
      simp only [Checked.toOption_bind, typed_erased left, typed_erased right]
      cases (typed handlers left).toOption with
      | none => rfl
      | some left' =>
          cases (typed handlers right).toOption with
          | none => rfl
          | some right' =>
              simp only [Option.map_some, Option.bind_some, valueType_erased]
              cases left'.valueType.comparable right'.valueType <;> rfl
  | and left right => by
      rw [erased, typed, typed]
      simp only [Checked.toOption_bind, typed_erased left, typed_erased right]
      cases (typed handlers left).toOption with
      | none => rfl
      | some left' =>
          simp only [Option.map_some, Option.bind_some, checkOperand_erased]
          cases checkOperand "logical operator" left' with
          | error failure => rfl
          | ok _ =>
              cases (typed handlers right).toOption with
              | none => rfl
              | some right' =>
                  simp only [Option.map_some, Option.bind_some, checkOperand_erased]
                  cases checkOperand "logical operator" right' <;> rfl
  | or left right => by
      rw [erased, typed, typed]
      simp only [Checked.toOption_bind, typed_erased left, typed_erased right]
      cases (typed handlers left).toOption with
      | none => rfl
      | some left' =>
          simp only [Option.map_some, Option.bind_some, checkOperand_erased]
          cases checkOperand "logical operator" left' with
          | error failure => rfl
          | ok _ =>
              cases (typed handlers right).toOption with
              | none => rfl
              | some right' =>
                  simp only [Option.map_some, Option.bind_some, checkOperand_erased]
                  cases checkOperand "logical operator" right' <;> rfl
  | not inner => by
      rw [erased, typed, typed]
      simp only [Checked.toOption_bind, typed_erased inner]
      cases (typed handlers inner).toOption with
      | none => rfl
      | some inner' =>
          simp only [Option.map_some, Option.bind_some, checkOperand_erased]
          cases checkOperand "not" inner' <;> rfl
  | property _ _ _ => rfl
  | wildcard _ _ => rfl
  | prior _ _ _ => rfl
  | constant _ => rfl
  | .variable _ _ => rfl
  | substitution _ _ => rfl
  | subquery _ _ => rfl

theorem typedAll_erased : (trees : List Resolved) →
    (typedAll handlers (erasedAll trees)).toOption =
      (typedAll handlers trees).toOption.map erasedAll
  | [] => rfl
  | tree :: trees => by
      rw [erasedAll, typedAll, typedAll]
      simp only [Checked.toOption_bind, typed_erased tree, typedAll_erased trees]
      cases (typed handlers tree).toOption with
      | none => rfl
      | some first => cases (typedAll handlers trees).toOption <;> rfl

end

variable {handlers}

theorem typed_of_erased {tree other found : Resolved} (alike : other.erased = tree.erased)
    (typedTo : typed handlers tree = .ok found) :
    ∃ otherFound, typed handlers other = .ok otherFound ∧ otherFound.erased = found.erased := by
  have same := (typed_erased handlers other).symm
  rw [alike, typed_erased handlers tree, typedTo] at same
  obtain ⟨otherFound, here, erases⟩ := Option.map_eq_some_iff.mp same
  cases result : typed handlers other with
  | error failure =>
      rw [result] at here
      cases here
  | ok value =>
      rw [result] at here
      cases here
      exact ⟨_, rfl, erases⟩

end Resolved

section

variable {node other : TableAccess} {table : TableDefinition}

theorem CheckedKeys.of_erased {columns : List String} {trees others keys : List Resolved}
    (checked : CheckedKeys node table columns trees keys)
    (alike : List.Forall₂ (fun tree other => other.erased = tree.erased) trees others) :
    ∃ otherKeys, CheckedKeys other table columns others otherKeys ∧
      Resolved.erasedAll otherKeys = Resolved.erasedAll keys := by
  induction checked generalizing others with
  | nil =>
      cases alike
      exact ⟨[], .nil, rfl⟩
  | cons accepted _ ih =>
      obtain ⟨filled, comparable⟩ := Frame.checkedKey_ok_iff.mp accepted
      cases alike with
      | cons head tail =>
          obtain ⟨otherKeys, rest, sameRest⟩ := ih tail
          obtain ⟨otherKey, otherFilled, same⟩ := Resolved.typed_of_erased head filled
          rw [← Resolved.valueType_of_erased same] at comparable
          refine ⟨otherKey :: otherKeys,
            .cons (Frame.checkedKey_ok_iff.mpr ⟨otherFilled, comparable⟩) rest, ?_⟩
          rw [Resolved.erasedAll, Resolved.erasedAll, same, sameRest]

theorem Frame.accessedType_of_erased {type : AttributeType} (alike : other.erased = node.erased)
    (accessed : Frame.accessedType node table = .ok type) :
    Frame.accessedType other table = .ok type := by
  unfold Frame.accessedType at accessed ⊢
  rw [(TableAccess.erased_eq_iff.mp alike).2]
  cases named : node.column with
  | none =>
      rw [named] at accessed
      exact accessed
  | some name =>
      rw [named] at accessed
      dsimp only at accessed ⊢
      cases known : table.columnType? name with
      | none =>
          rw [known] at accessed
          cases accessed
      | some found =>
          rw [known] at accessed
          exact accessed

end

end EventQuery
