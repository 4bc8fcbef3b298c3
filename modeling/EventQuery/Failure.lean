import EventQuery.AttributeType
import EventQuery.Representation
import EventQuery.Text.Quoted

set_option autoImplicit false

/-! The causes for which a statement, a configuration or a property access is refused. A cause
carries what it is about; its wording is given once, by `message`. -/

namespace EventQuery

inductive SymbolKind where
  | variable
  | table
  | column
  | eventType
  | stream
  | function
  | aggregationFactory
  deriving DecidableEq, Repr

def SymbolKind.name : SymbolKind → String
  | .variable => "variable"
  | .table => "table"
  | .column => "column"
  | .eventType => "event type"
  | .stream => "stream"
  | .function => "function"
  | .aggregationFactory => "aggregation multi-function factory"

inductive Clause where
  | select
  | filter
  | groupBy
  | having
  deriving DecidableEq, Repr

def Clause.name : Clause → String
  | .select => "select"
  | .filter => "where"
  | .groupBy => "group-by"
  | .having => "having"

inductive TypeFault where
  | keyCount (expected given : Nat)
  | keyType (column key : AttributeType)
  | declarationArity (expected given : Nat)
  | scriptArity (script : String) (given : Nat)
  | arithmetic (left right : AttributeType)
  | comparison (left right : AttributeType)
  | operand (found : AttributeType)
  | condition (clause : Clause) (found : AttributeType)
  | binding (declared : AttributeType) (provided : Option AttributeType)
  deriving DecidableEq, Repr

namespace TypeFault

def message : TypeFault → String
  | keyCount expected given =>
      s!"the table has {expected} key column(s) but {given} key expression(s) were given"
  | keyType column key => s!"key column is {column.name} but the key expression is {key.name}"
  | declarationArity expected given =>
      s!"the declared expression takes {expected} parameter(s) but {given} were given"
  | scriptArity script given => s!"no script '{script}' takes {given} parameter(s)"
  | arithmetic left right =>
      s!"arithmetic requires numeric operands, found {left.name} and {right.name}"
  | comparison left right => s!"cannot compare {left.name} with {right.name}"
  | operand found => s!"operand must be bool, found {found.name}"
  | condition clause found =>
      s!"the {clause.name}-clause must be a bool expression, found {found.name}"
  | binding declared (some type) =>
      s!"expected {declared.name} but the provided value is {type.name}"
  | binding declared none => s!"expected {declared.name} but the provided value is not a scalar"

end TypeFault

inductive PropertyFault where
  | unknown
  | unknownFragment (fragment : String)
  | fragmentNotTree (fragment : String)
  | fragmentNotRecord (fragment : String)
  | emptyName
  | notNavigable (head : String)
  | indexOutOfRange (index count : Nat)
  | notPositional (representation : Representation)
  /-- A declared property that has no place in the backing stores of its type. -/
  | noPosition
  | noAccessor (className : String)
  | noField (schema : String)
  deriving DecidableEq, Repr

namespace PropertyFault

def message : PropertyFault → String
  | unknown => "no such property"
  | unknownFragment fragment => s!"fragment type '{fragment}' is not a known event type"
  | fragmentNotTree fragment => s!"fragment type '{fragment}' is not tree-backed"
  | fragmentNotRecord fragment => s!"fragment type '{fragment}' is not schema-tagged"
  | emptyName => "empty property name"
  | notNavigable head => s!"'{head}' is not a fragment and cannot be navigated"
  | indexOutOfRange index count =>
      s!"index {index} is out of range, the type declares {count} properties"
  | notPositional representation =>
      s!"positional access requires an object-array type, not {representation.name}"
  | noPosition => "property has no position in the array"
  | noAccessor className => s!"class '{className}' has no accessor"
  | noField schema => s!"schema '{schema}' has no such field"

end PropertyFault

inductive SubstitutionFault where
  | mixedStyles
  | boundByName
  | boundByPosition
  | missing (name : String)
  deriving DecidableEq, Repr

namespace SubstitutionFault

def message : SubstitutionFault → String
  | mixedStyles => "named and unnamed substitution parameters cannot be mixed"
  | boundByName => "the statement uses named parameters, bind them by name"
  | boundByPosition => "the statement uses unnamed parameters, bind them by position"
  | missing name => s!"no value provided for '{name}'"

end SubstitutionFault

inductive Restriction where
  | repeatedStreamName (name : String)
  | priorOfNonProperty (path : String)
  | wildcardOutsideAggregation
  | ambiguousWildcard
  | substitutionInSubquery
  | selfReference (declaration : String)
  | aggregationInClause (function : String) (clause : Clause)
  | nestedAggregation (function : String)
  | subqueryColumns (count : Nat)
  | lateCallSite
  | repeatedDeclaration
  | validationBeforeDeclaration
  | notPermutation (order : List Nat) (count : Nat)
  deriving DecidableEq, Repr

namespace Restriction

def message : Restriction → String
  | repeatedStreamName name => s!"stream name '{name}' is used more than once"
  | priorOfNonProperty path => s!"prior requires a stream property, '{path}' is not one"
  | wildcardOutsideAggregation =>
      "a stream wildcard is only valid as an aggregation function parameter"
  | ambiguousWildcard => "'*' is ambiguous with several streams, qualify it as 'alias.*'"
  | substitutionInSubquery => "substitution parameters are not supported inside subqueries"
  | selfReference declaration => s!"declared expression '{declaration}' refers to itself"
  | aggregationInClause function clause =>
      s!"aggregation function '{function}' is not allowed in the {clause.name}-clause"
  | nestedAggregation function =>
      s!"aggregation function '{function}' cannot be nested in another aggregation"
  | subqueryColumns count => s!"a subquery must select exactly one column, found {count}"
  | lateCallSite => "aggregation call sites cannot be added once declaration has started"
  | repeatedDeclaration => "aggregation call sites were already declared"
  | validationBeforeDeclaration =>
      "every aggregation call site must be declared before validation"
  | notPermutation order count =>
      let indexes := Text.bracketed (order.map Nat.repr)
      s!"visitation order {indexes} is not a permutation of {count} call sites"

end Restriction

/-- A failure of compilation, binding or getter construction. -/
inductive ValidationError where
  | unknownSymbol (kind : SymbolKind) (name : String)
  | typeMismatch (name : String) (fault : TypeFault)
  | invalidProperty (eventType property : String) (fault : PropertyFault)
  | ambiguousProperty (path : String)
  /-- An aggregation family refused the call with a text of its own. -/
  | aggregationRejected (function text : String)
  | substitutionCountMismatch (expected provided : Nat)
  | invalidSubstitution (fault : SubstitutionFault)
  | notAllowed (restriction : Restriction)
  deriving DecidableEq, Repr

namespace ValidationError

def message : ValidationError → String
  | unknownSymbol kind name => s!"Unknown {kind.name}: '{name}'"
  | typeMismatch name fault => s!"Type mismatch for '{name}': {fault.message}"
  | invalidProperty eventType property fault =>
      s!"Property '{property}' is not valid for event type '{eventType}': {fault.message}"
  | ambiguousProperty path => s!"Property '{path}' is ambiguous, it is found in multiple streams"
  | aggregationRejected function text =>
      s!"Aggregation function '{function}' rejected the call: {text}"
  | substitutionCountMismatch expected provided =>
      s!"Substitution parameter count mismatch: statement has {expected} parameter(s) " ++
        s!"but {provided} value(s) were provided"
  | invalidSubstitution fault => s!"Invalid substitution parameter: {fault.message}"
  | notAllowed restriction => restriction.message

def isUnknownSymbol : ValidationError → Bool
  | unknownSymbol _ _ => true
  | _ => false

end ValidationError

structure Position where
  line : Int
  column : Int
  deriving DecidableEq, Repr

/-- A failure together with the place of the construct that caused it, if that is known. -/
structure LocatedError where
  error : ValidationError
  position : Option Position
  deriving DecidableEq, Repr

structure StatementError extends LocatedError where
  statement : String
  deriving DecidableEq, Repr

def StatementError.message (failure : StatementError) : String :=
  let cause := failure.error.message
  match failure.position with
  | some ⟨line, column⟩ =>
      s!"{cause} at line {line}, column {column} in statement '{failure.statement}'"
  | none => s!"{cause} in statement '{failure.statement}'"

structure AccessError where
  expected : Representation
  actual : Representation
  deriving DecidableEq, Repr

def AccessError.message (failure : AccessError) : String :=
  s!"Getter compiled for {failure.expected.name} events cannot read an event backed by " ++
    failure.actual.name

inductive ConfigurationError where
  | duplicateEventType (name : String)
  | unknownFragmentType (eventType property fragment : String)
  | missingSchema (eventType : String)
  | nestedSchemaConflict (eventType schema : String)
  | beanFromDocument (eventType : String)
  | unknownFactory (factory : String) (functions : List String)
  | duplicateFunction (name : String)
  | unknownKeyColumn (table column : String)
  | duplicate (kind : SymbolKind) (name : String)
  deriving DecidableEq, Repr

namespace ConfigurationError

def message : ConfigurationError → String
  | duplicateEventType name => s!"Duplicate event type: {name}"
  | unknownFragmentType eventType property fragment =>
      s!"Event type '{eventType}' declares fragment '{property}' of unknown type '{fragment}'"
  | missingSchema eventType => s!"Event type '{eventType}' needs a schema-tagged record schema"
  | nestedSchemaConflict eventType schema =>
      s!"Nested record schema '{schema}' of event type '{eventType}' " ++
        "conflicts with a registered type of the same name"
  | beanFromDocument eventType =>
      s!"Event type '{eventType}' uses the bean representation and " ++
        "must be registered with a bean descriptor"
  | unknownFactory factory functions =>
      let names := Text.bracketed (functions.map Text.quoted)
      s!"Unknown aggregation multi-function factory '{factory}' for functions {names}"
  | duplicateFunction name => s!"Function name '{name}' is configured more than once"
  | unknownKeyColumn table column =>
      s!"Table '{table}' declares key column '{column}' which is not one of its columns"
  | duplicate kind name => s!"Duplicate {kind.name}: {name}"

end ConfigurationError

end EventQuery
