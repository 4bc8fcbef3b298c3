import EventQuery.Failure
import EventQuery.Numeric.Binary

set_option autoImplicit false

/-! Statements and expressions as they are written, before any name is resolved. A node knows
its place in the text if it has one. A table access also has an identity, so that the same
access recorded twice can be told from two accesses that read alike. -/

namespace EventQuery

inductive Constant where
  | string (text : String)
  | int (number : Int32)
  | long (number : Int64)
  | float (number : Binary32)
  | double (number : Binary64)
  | bool (truth : Bool)
  | null
  deriving DecidableEq, Repr

namespace Constant

def type : Constant → AttributeType
  | string _ => .string
  | int _ => .int
  | long _ => .long
  | float _ => .float
  | double _ => .double
  | bool _ => .bool
  | null => .object

end Constant

inductive MathOperator where
  | add
  | subtract
  | multiply
  | divide
  | modulo
  deriving DecidableEq, Repr

namespace MathOperator

def all : List MathOperator := [add, subtract, multiply, divide, modulo]

def name : MathOperator → String
  | add => "Add"
  | subtract => "Subtract"
  | multiply => "Multiply"
  | divide => "Divide"
  | modulo => "Mod"

end MathOperator

inductive CompareOperator where
  | equal
  | notEqual
  | greater
  | greaterOrEqual
  | less
  | lessOrEqual
  deriving DecidableEq, Repr

namespace CompareOperator

def all : List CompareOperator :=
  [equal, notEqual, greater, greaterOrEqual, less, lessOrEqual]

def name : CompareOperator → String
  | equal => "Equal"
  | notEqual => "NotEqual"
  | greater => "GreaterThan"
  | greaterOrEqual => "GreaterThanEqual"
  | less => "LessThan"
  | lessOrEqual => "LessThanEqual"

end CompareOperator

structure PropertyNode where
  position : Option Position
  stream : Option String
  path : String
  deriving DecidableEq, Repr

structure SubstitutionNode where
  position : Option Position
  name : Option String
  declaredType : Option AttributeType
  deriving DecidableEq, Repr

/-- A script in a foreign language; only its name, its arity and its result type matter here. -/
structure Script where
  name : String
  parameters : List String
  code : String
  returns : AttributeType
  dialect : Option String
  deriving DecidableEq, Repr

/-- A stream of a statement: an event type and the name under which it is referred to. -/
structure StreamSource where
  position : Option Position
  eventType : String
  label : Option String
  deriving DecidableEq, Repr

def StreamSource.name (source : StreamSource) : String :=
  source.label.getD source.eventType

mutual

inductive Expression where
  | constant (position : Option Position) (value : Constant)
  | property (node : PropertyNode)
  /-- All events of the only stream or of a named one. -/
  | wildcard (position : Option Position) (stream : Option String)
  | table (node : TableAccess)
  | substitution (node : SubstitutionNode)
  /-- The property of the event that came `index` events before. -/
  | prior (position : Option Position) (index : Nat) (node : PropertyNode)
  | call (node : FunctionCall)
  | subquery (position : Option Position) (statement : Statement)
  | math (operator : MathOperator) (left right : Expression)
  | compare (operator : CompareOperator) (left right : Expression)
  | and (left right : Expression)
  | or (left right : Expression)
  | not (inner : Expression)

/-- The row of a table under some keys, or one column of it. -/
structure TableAccess where
  identity : Nat
  position : Option Position
  table : String
  keys : List Expression
  column : Option String

structure FunctionCall where
  position : Option Position
  name : String
  distinct : Bool
  parameters : List Expression

structure SelectItem where
  expression : Expression
  rename : Option String

structure Declaration where
  name : String
  parameters : List String
  body : Expression

structure Statement where
  name : String
  text : Option String
  context : Option String
  declarations : List Declaration
  scripts : List Script
  select : List SelectItem
  streams : List StreamSource
  filter : Option Expression
  groupBy : List Expression
  having : Option Expression

end

namespace Expression

/-- The place of a node; an operator stands where its leftmost operand stands. -/
def position : Expression → Option Position
  | constant position _ => position
  | property node => node.position
  | wildcard position _ => position
  | table node => node.position
  | substitution node => node.position
  | prior position _ _ => position
  | call node => node.position
  | subquery position _ => position
  | math _ left _ => left.position
  | compare _ left _ => left.position
  | and left _ => left.position
  | or left _ => left.position
  | not inner => inner.position

/-- An expression at a new place. An operator has no place of its own and stays as it is; a
table access becomes another node, under a fresh identity. -/
def moved (expression : Expression) (position : Position) (identity : Nat) : Expression :=
  match expression with
  | constant _ value => .constant position value
  | property node => .property { node with position := position }
  | wildcard _ stream => .wildcard position stream
  | table node => .table { node with position := position, identity := identity }
  | substitution node => .substitution { node with position := position }
  | prior _ index node => .prior position index node
  | call node => .call { node with position := position }
  | subquery _ statement => .subquery position statement
  | operator => operator

def columnName (expression : Expression) (index : Nat) : String :=
  match expression with
  | property node => node.path
  | call node => node.name
  | prior _ distance node => s!"prior({distance}, {node.path})"
  | _ => s!"column{index}"

end Expression

end EventQuery
