import EventQuery.Expression.Size
import EventQuery.Proofs.Resolution.Derivation
import EventQuery.Proofs.Termination.Visits

set_option autoImplicit false

/-! The subqueries in a text. They are finitely many, each is smaller than what it is in, and
what is in a part of a text is in the text. -/

namespace EventQuery

mutual

def Expression.subqueries : Expression → List Statement
  | .constant _ _ => []
  | .property _ => []
  | .wildcard _ _ => []
  | .table node => node.subqueries
  | .substitution _ => []
  | .prior _ _ _ => []
  | .call node => node.subqueries
  | .subquery _ statement => statement :: statement.subqueries
  | .math _ left right => left.subqueries ++ right.subqueries
  | .compare _ left right => left.subqueries ++ right.subqueries
  | .and left right => left.subqueries ++ right.subqueries
  | .or left right => left.subqueries ++ right.subqueries
  | .not inner => inner.subqueries
termination_by structural expression => expression

def TableAccess.subqueries : TableAccess → List Statement
  | ⟨_, _, _, keys, _⟩ => subqueriesOfExpressions keys
termination_by structural node => node

def FunctionCall.subqueries : FunctionCall → List Statement
  | ⟨_, _, _, parameters⟩ => subqueriesOfExpressions parameters
termination_by structural node => node

def SelectItem.subqueries : SelectItem → List Statement
  | ⟨expression, _⟩ => expression.subqueries
termination_by structural item => item

def Declaration.subqueries : Declaration → List Statement
  | ⟨_, _, body⟩ => body.subqueries
termination_by structural declaration => declaration

def Statement.subqueries : Statement → List Statement
  | ⟨_, _, _, declarations, _, select, _, filter, groupBy, having⟩ =>
      subqueriesOfDeclarations declarations ++ subqueriesOfItems select ++
        subqueriesOfClause filter ++ subqueriesOfExpressions groupBy ++
        subqueriesOfClause having
termination_by structural statement => statement

def subqueriesOfExpressions : List Expression → List Statement
  | [] => []
  | expression :: rest => expression.subqueries ++ subqueriesOfExpressions rest
termination_by structural expressions => expressions

def subqueriesOfItems : List SelectItem → List Statement
  | [] => []
  | item :: rest => item.subqueries ++ subqueriesOfItems rest
termination_by structural items => items

def subqueriesOfDeclarations : List Declaration → List Statement
  | [] => []
  | declaration :: rest => declaration.subqueries ++ subqueriesOfDeclarations rest
termination_by structural declarations => declarations

def subqueriesOfClause : Option Expression → List Statement
  | none => []
  | some expression => expression.subqueries
termination_by structural clause => clause

end

/-- Some subqueries fit into a text of a given size. -/
structure Fits (found : List Statement) (size : Nat) : Prop where
  count : 2 * found.length ≤ size
  smaller : ∀ statement ∈ found, statement.size < size
  closed : ∀ statement ∈ found, statement.subqueries ⊆ found

namespace Fits

theorem none (size : Nat) : Fits [] size :=
  ⟨Nat.zero_le _, List.forall_mem_nil _, List.forall_mem_nil _⟩

theorem mono {found : List Statement} {size larger : Nat} (fits : Fits found size)
    (fewer : size ≤ larger) : Fits found larger where
  count := Nat.le_trans fits.count fewer
  smaller statement member := Nat.lt_of_lt_of_le (fits.smaller statement member) fewer
  closed := fits.closed

theorem append {found others : List Statement} {size otherSize : Nat} (first : Fits found size)
    (second : Fits others otherSize) : Fits (found ++ others) (size + otherSize) where
  count := by
    have firstCount := first.count
    have secondCount := second.count
    rw [List.length_append]
    omega
  smaller := by
    intro statement member
    rcases List.mem_append.mp member with here | there
    · exact Nat.lt_of_lt_of_le (first.smaller statement here) (Nat.le_add_right _ _)
    · exact Nat.lt_of_lt_of_le (second.smaller statement there) (Nat.le_add_left _ _)
  closed := by
    intro statement member
    rcases List.mem_append.mp member with here | there
    · exact List.subset_append_of_subset_left _ (first.closed statement here)
    · exact List.subset_append_of_subset_right _ (second.closed statement there)

theorem cons {statement : Statement} {inner : Nat} (whole : statement.size = inner + 1)
    (fits : Fits statement.subqueries inner) :
    Fits (statement :: statement.subqueries) (statement.size + 1) where
  count := by
    have count := fits.count
    rw [List.length_cons]
    omega
  smaller := by
    intro other member
    rcases List.mem_cons.mp member with rfl | nested
    · exact Nat.lt_succ_self _
    · have smaller := fits.smaller other nested
      omega
  closed := by
    intro other member
    rcases List.mem_cons.mp member with rfl | nested
    · exact List.subset_cons_self _ _
    · exact List.subset_cons_of_subset _ (fits.closed other nested)

end Fits

def Statement.inner (statement : Statement) : Nat :=
  sizeOfDeclarations statement.declarations + sizeOfItems statement.select +
    sizeOfClause statement.filter + sizeOfExpressions statement.groupBy +
    sizeOfClause statement.having

theorem Statement.size_eq_inner_succ (statement : Statement) :
    statement.size = statement.inner + 1 := by
  cases statement
  rfl

mutual

theorem Expression.fits : (expression : Expression) → Fits expression.subqueries expression.size
  | .constant _ _ => .none _
  | .property _ => .none _
  | .wildcard _ _ => .none _
  | .table node => node.fits
  | .substitution _ => .none _
  | .prior _ _ _ => .none _
  | .call node => node.fits
  | .subquery _ statement => .cons statement.size_eq_inner_succ statement.fits
  | .math _ left right => (left.fits.append right.fits).mono (Nat.le_succ _)
  | .compare _ left right => (left.fits.append right.fits).mono (Nat.le_succ _)
  | .and left right => (left.fits.append right.fits).mono (Nat.le_succ _)
  | .or left right => (left.fits.append right.fits).mono (Nat.le_succ _)
  | .not inner => inner.fits.mono (Nat.le_succ _)
termination_by structural expression => expression

theorem TableAccess.fits : (node : TableAccess) → Fits node.subqueries node.size
  | ⟨_, _, _, keys, _⟩ => (fits_expressions keys).mono (Nat.le_succ _)
termination_by structural node => node

theorem FunctionCall.fits : (node : FunctionCall) → Fits node.subqueries node.size
  | ⟨_, _, _, parameters⟩ => (fits_expressions parameters).mono (Nat.le_succ _)
termination_by structural node => node

theorem SelectItem.fits : (item : SelectItem) → Fits item.subqueries item.size
  | ⟨expression, _⟩ => expression.fits
termination_by structural item => item

theorem Declaration.fits :
    (declaration : Declaration) → Fits declaration.subqueries declaration.size
  | ⟨_, _, body⟩ => body.fits.mono (Nat.le_succ _)
termination_by structural declaration => declaration

theorem Statement.fits : (statement : Statement) → Fits statement.subqueries statement.inner
  | ⟨_, _, _, declarations, _, select, _, filter, groupBy, having⟩ =>
      ((((fits_declarations declarations).append (fits_items select)).append
        (fits_clause filter)).append (fits_expressions groupBy)).append (fits_clause having)
termination_by structural statement => statement

theorem fits_expressions : (expressions : List Expression) →
    Fits (subqueriesOfExpressions expressions) (sizeOfExpressions expressions)
  | [] => .none _
  | expression :: rest => expression.fits.append (fits_expressions rest)
termination_by structural expressions => expressions

theorem fits_items : (items : List SelectItem) →
    Fits (subqueriesOfItems items) (sizeOfItems items)
  | [] => .none _
  | item :: rest => item.fits.append (fits_items rest)
termination_by structural items => items

theorem fits_declarations : (declarations : List Declaration) →
    Fits (subqueriesOfDeclarations declarations) (sizeOfDeclarations declarations)
  | [] => .none _
  | declaration :: rest => declaration.fits.append (fits_declarations rest)
termination_by structural declarations => declarations

theorem fits_clause : (clause : Option Expression) →
    Fits (subqueriesOfClause clause) (sizeOfClause clause)
  | none => .none _
  | some expression => expression.fits
termination_by structural clause => clause

end

theorem Expression.size_pos (expression : Expression) : 0 < expression.size := by
  cases expression with
  | table node =>
      cases node
      exact Nat.succ_pos _
  | call node =>
      cases node
      exact Nat.succ_pos _
  | _ => exact Nat.succ_pos _

/-- One text is part of another: it is no larger, and its subqueries are in it. -/
structure Expression.Within (expression : Expression) (found : List Statement) (size : Nat) :
    Prop where
  size : expression.size ≤ size
  subqueries : expression.subqueries ⊆ found

theorem Expression.Within.mono {expression : Expression} {found more : List Statement}
    {size larger : Nat} (within : expression.Within found size) (wider : found ⊆ more)
    (fewer : size ≤ larger) : expression.Within more larger :=
  ⟨Nat.le_trans within.size fewer, List.Subset.trans within.subqueries wider⟩

theorem within_expressions {expression : Expression} {expressions : List Expression}
    (member : expression ∈ expressions) :
    expression.Within (subqueriesOfExpressions expressions) (sizeOfExpressions expressions) := by
  induction expressions with
  | nil => cases member
  | cons head tail ih =>
      rcases List.mem_cons.mp member with rfl | later
      · exact ⟨Nat.le_add_right _ _, List.subset_append_left _ _⟩
      · exact (ih later).mono (List.subset_append_right _ _) (Nat.le_add_left _ _)

theorem within_items {expression : Expression} {items : List SelectItem}
    (member : expression ∈ items.map SelectItem.expression) :
    expression.Within (subqueriesOfItems items) (sizeOfItems items) := by
  induction items with
  | nil => cases member
  | cons head tail ih =>
      rcases List.mem_cons.mp member with rfl | later
      · cases head
        exact ⟨Nat.le_add_right _ _, List.subset_append_left _ _⟩
      · exact (ih later).mono (List.subset_append_right _ _) (Nat.le_add_left _ _)

theorem within_clause {expression : Expression} {clause : Option Expression}
    (member : expression ∈ clause.toList) :
    expression.Within (subqueriesOfClause clause) (sizeOfClause clause) := by
  cases clause with
  | none => cases member
  | some present =>
      cases List.mem_singleton.mp member
      exact ⟨Nat.le_refl _, List.Subset.refl _⟩

theorem subqueries_of_mem_declarations {declaration : Declaration}
    {declarations : List Declaration} (member : declaration ∈ declarations) :
    declaration.subqueries ⊆ subqueriesOfDeclarations declarations := by
  induction declarations with
  | nil => cases member
  | cons head tail ih =>
      rcases List.mem_cons.mp member with rfl | later
      · exact List.subset_append_left _ _
      · exact List.subset_append_of_subset_right _ (ih later)

theorem Declaration.size_eq_body_succ (declaration : Declaration) :
    declaration.size = declaration.body.size + 1 := by
  cases declaration
  rfl

theorem Declaration.subqueries_eq_body (declaration : Declaration) :
    declaration.subqueries = declaration.body.subqueries := by
  cases declaration
  rfl

namespace Statement

theorem subqueries_eq_append (statement : Statement) :
    statement.subqueries = subqueriesOfDeclarations statement.declarations ++
      subqueriesOfItems statement.select ++ subqueriesOfClause statement.filter ++
      subqueriesOfExpressions statement.groupBy ++ subqueriesOfClause statement.having := by
  cases statement
  rfl

theorem declared_subqueries (statement : Statement) :
    subqueriesOfDeclarations statement.declarations ⊆ statement.subqueries := by
  simp only [subqueries_eq_append, List.append_assoc]
  exact List.subset_append_left _ _

theorem within_of_mem_items {statement : Statement} {scope : Scope} {expression : Expression}
    (member : (scope, expression) ∈ statement.items) :
    expression.Within statement.subqueries
      (statement.inner - sizeOfDeclarations statement.declarations) := by
  have each {clause : Clause} {expressions : List Expression}
      (inside : (scope, expression) ∈ (Scope.ofClause clause).each expressions) :
      expression ∈ expressions := by
    obtain ⟨found, inside, same⟩ := List.mem_map.mp inside
    cases same
    exact inside
  rw [subqueries_eq_append]
  unfold inner
  rcases List.mem_append.mp member with earlier | inHaving
  · rcases List.mem_append.mp earlier with earlier | inGroupBy
    · rcases List.mem_append.mp earlier with inSelect | inFilter
      · apply (within_items (each inSelect)).mono
        · intro found inItems
          simp only [List.mem_append, inItems, true_or, or_true]
        · omega
      · apply (within_clause (each inFilter)).mono
        · intro found inClause
          simp only [List.mem_append, inClause, true_or, or_true]
        · omega
    · apply (within_expressions (each inGroupBy)).mono
      · intro found inExpressions
        simp only [List.mem_append, inExpressions, true_or, or_true]
      · omega
  · apply (within_clause (each inHaving)).mono
    · intro found inClause
      simp only [List.mem_append, inClause, or_true]
    · omega

end Statement

theorem Expression.within_of_mem_operands {expression operand : Expression}
    (member : operand ∈ expression.operands) :
    operand.Within expression.subqueries (expression.size - 1) := by
  have pair {left right : Expression} (inside : operand ∈ [left, right]) :
      operand.Within (left.subqueries ++ right.subqueries) (left.size + right.size) := by
    have within := within_expressions inside
    simp only [subqueriesOfExpressions, sizeOfExpressions, List.append_nil, Nat.add_zero] at within
    exact within
  cases expression with
  | math operator left right => exact pair member
  | compare operator left right => exact pair member
  | and left right => exact pair member
  | or left right => exact pair member
  | not inner =>
      cases List.mem_singleton.mp member
      exact ⟨Nat.le_refl _, List.Subset.refl _⟩
  | _ => cases member

theorem TableAccess.within_of_mem_keys {node : TableAccess} {key : Expression}
    (member : key ∈ node.keys) : key.Within node.subqueries (node.size - 1) := by
  cases node
  exact within_expressions member

theorem FunctionCall.within_of_mem_parameters {node : FunctionCall} {parameter : Expression}
    (member : parameter ∈ node.parameters) :
    parameter.Within node.subqueries (node.size - 1) := by
  cases node
  exact within_expressions member

end EventQuery
