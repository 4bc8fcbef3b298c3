import EventQuery.Expression

set_option autoImplicit false

/-! The size of an expression: the number of nodes in it, those of subqueries included. -/

namespace EventQuery

mutual

def Expression.size : Expression → Nat
  | .constant _ _ => 1
  | .property _ => 1
  | .wildcard _ _ => 1
  | .table node => node.size
  | .substitution _ => 1
  | .prior _ _ _ => 1
  | .call node => node.size
  | .subquery _ statement => statement.size + 1
  | .math _ left right => left.size + right.size + 1
  | .compare _ left right => left.size + right.size + 1
  | .and left right => left.size + right.size + 1
  | .or left right => left.size + right.size + 1
  | .not inner => inner.size + 1
termination_by structural expression => expression

def TableAccess.size : TableAccess → Nat
  | ⟨_, _, _, keys, _⟩ => sizeOfExpressions keys + 1
termination_by structural node => node

def FunctionCall.size : FunctionCall → Nat
  | ⟨_, _, _, parameters⟩ => sizeOfExpressions parameters + 1
termination_by structural node => node

def SelectItem.size : SelectItem → Nat
  | ⟨expression, _⟩ => expression.size
termination_by structural item => item

def Declaration.size : Declaration → Nat
  | ⟨_, _, body⟩ => body.size + 1
termination_by structural declaration => declaration

def Statement.size : Statement → Nat
  | ⟨_, _, _, declarations, _, select, _, filter, groupBy, having⟩ =>
      sizeOfDeclarations declarations + sizeOfItems select + sizeOfClause filter +
        sizeOfExpressions groupBy + sizeOfClause having + 1
termination_by structural statement => statement

def sizeOfExpressions : List Expression → Nat
  | [] => 0
  | expression :: rest => expression.size + sizeOfExpressions rest
termination_by structural expressions => expressions

def sizeOfItems : List SelectItem → Nat
  | [] => 0
  | item :: rest => item.size + sizeOfItems rest
termination_by structural items => items

def sizeOfDeclarations : List Declaration → Nat
  | [] => 0
  | declaration :: rest => declaration.size + sizeOfDeclarations rest
termination_by structural declarations => declarations

def sizeOfClause : Option Expression → Nat
  | none => 0
  | some expression => expression.size
termination_by structural clause => clause

end

end EventQuery
