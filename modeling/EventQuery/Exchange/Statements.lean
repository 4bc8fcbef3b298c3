import EventQuery.Exchange.Values

set_option autoImplicit false

/-! Expressions and statements in the exchange format. An expression is a list that begins with
its tag; a list with the tag `at` puts an expression at a place of the text. Every table access
that is read gets an identity of its own, unless it is a node that was handed over before. -/

namespace EventQuery.Exchange

def position : Option Position → Json
  | some ⟨line, column⟩ => arr [int line, int column]
  | none => .null

def placed (place : Option Position) (written : Json) : Json :=
  match place with
  | some ⟨line, column⟩ => arr [str "at", int line, int column, written]
  | none => written

def constant : Constant → Json
  | .string text => arr [str "str", str text]
  | .int number => arr [str "int", int number.toInt]
  | .long number => arr [str "long", int number.toInt]
  | .float number => arr [str "float", float32 number]
  | .double number => arr [str "double", float64 number]
  | .bool truth => arr [str "bool", .bool truth]
  | .null => arr [str "null"]

def propertyNode (node : PropertyNode) : Json :=
  match node.stream with
  | some stream => arr [str "sprop", str stream, str node.path]
  | none => arr [str "prop", str node.path]

def substitutionNode (node : SubstitutionNode) : Json :=
  arr [str "subst", maybe str node.name, maybe typeName node.declaredType]

mutual

def expression : Expression → Json
  | .constant place held => placed place (constant held)
  | .property node => placed node.position (propertyNode node)
  | .wildcard place stream => placed place (arr [str "star", maybe str stream])
  | .table node => placed node.position (tableAccess node)
  | .substitution node => placed node.position (substitutionNode node)
  | .prior place index node => placed place (arr [str "prior", nat index, str node.path])
  | .call node => placed node.position (functionCall node)
  | .subquery place statement => placed place (arr [str "sub", str statement.name])
  | .math operator left right =>
      arr [str "math", str operator.name, expression left, expression right]
  | .compare operator left right =>
      arr [str "cmp", str operator.name, expression left, expression right]
  | .and left right => arr [str "and", expression left, expression right]
  | .or left right => arr [str "or", expression left, expression right]
  | .not inner => arr [str "not", expression inner]
termination_by structural held => held

def tableAccess : TableAccess → Json
  | ⟨_, _, table, keys, column⟩ =>
      arr [str "table", str table, arr (expressions keys), maybe str column]
termination_by structural node => node

def functionCall : FunctionCall → Json
  | ⟨_, name, distinct, parameters⟩ =>
      arr [str (if distinct then "distinct" else "call"), str name, arr (expressions parameters)]
termination_by structural node => node

def expressions : List Expression → List Json
  | [] => []
  | held :: rest => expression held :: expressions rest
termination_by structural held => held

end

def declaration (held : Declaration) : Json :=
  obj [("name", str held.name), ("params", arr (held.parameters.map str)),
    ("body", expression held.body)]

def script (held : Script) : Json :=
  obj [("name", str held.name), ("params", arr (held.parameters.map str)),
    ("code", str held.code), ("returns", typeName held.returns),
    ("dialect", maybe str held.dialect)]

def readPosition (json : Json) : Reader Position := do
  let (line, column) ← pairOf json
  return ⟨← intOf line, ← intOf column⟩

def readScript (json : Json) : Reader Script := do
  return ⟨← textField json "name", ← textsField json "params",
    (← optionalText json "code").getD "", ← typeField json "returns",
    ← optionalText json "dialect"⟩

def readSource (json : Json) : Reader StreamSource := do
  return ⟨← (optional json "at").mapM readPosition, ← textField json "type",
    ← optionalText json "as"⟩

def readMathOperator (json : Json) : Reader MathOperator := do
  let name ← textOf json
  match MathOperator.all.find? (fun operator => operator.name = name) with
  | some operator => return operator
  | none => throw "unknown operator"

def readCompareOperator (json : Json) : Reader CompareOperator := do
  let name ← textOf json
  match CompareOperator.all.find? (fun operator => operator.name = name) with
  | some operator => return operator
  | none => throw "unknown operator"

mutual

def readExpressionWithin (known : Known) : Nat → Json → Reader Expression
  | 0, _ => throw "expression nested too deeply"
  | fuel + 1, json => do
      let readInner := readExpressionWithin known fuel
      let readList (held : Option Json) : Reader (List Expression) := do
        (← listOf (held.getD (.list []))).mapM readInner
      match ← listOf json with
      | [.text "int", number] => return .constant none (.int (Int32.ofInt (← intOf number)))
      | [.text "long", number] => return .constant none (.long (Int64.ofInt (← intOf number)))
      | [.text "float", bits] => return .constant none (.float (← float32Of bits))
      | [.text "double", bits] => return .constant none (.double (← float64Of bits))
      | [.text "str", text] => return .constant none (.string (← textOf text))
      | [.text "bool", truth] => return .constant none (.bool (← boolOf truth))
      | [.text "null"] => return .constant none .null
      | [.text "prop", path] => return .property ⟨none, none, ← textOf path⟩
      | [.text "sprop", stream, path] =>
          return .property ⟨none, some (← textOf stream), ← textOf path⟩
      | .text "star" :: rest => return .wildcard none (← (element rest 0).mapM textOf)
      | .text "table" :: name :: rest =>
          let keys ← readList (element rest 0)
          let column ← (element rest 1).mapM textOf
          return .table ⟨← freshIdentity, none, ← textOf name, keys, column⟩
      | .text "subst" :: rest =>
          let name ← (element rest 0).mapM textOf
          return .substitution ⟨none, name, ← (element rest 1).mapM typeOf⟩
      | [.text "prior", index, path] =>
          return .prior none (← natOf index) ⟨none, none, ← textOf path⟩
      | [.text "prior", index, inner, .text "node"] =>
          match ← readInner inner with
          | .property node => return .prior none (← natOf index) node
          | _ => throw "not a property node"
      | .text "call" :: name :: rest =>
          return .call ⟨none, ← textOf name, false, ← readList (element rest 0)⟩
      | .text "distinct" :: name :: rest =>
          return .call ⟨none, ← textOf name, true, ← readList (element rest 0)⟩
      | [.text "sub", statement] =>
          return .subquery none (← readStatementWithin known fuel statement)
      | [.text "math", operator, left, right] =>
          return .math (← readMathOperator operator) (← readInner left) (← readInner right)
      | [.text "cmp", operator, left, right] =>
          return .compare (← readCompareOperator operator) (← readInner left) (← readInner right)
      | [.text "and", left, right] => return .and (← readInner left) (← readInner right)
      | [.text "or", left, right] => return .or (← readInner left) (← readInner right)
      | [.text "not", inner] => return .not (← readInner inner)
      | [.text "at", line, column, inner] =>
          let inner ← readInner inner
          return inner.moved ⟨← intOf line, ← intOf column⟩ (← freshIdentity)
      | [.text "node", name] => named known.nodes (← textOf name)
      | _ => throw "unknown expression"

def readDeclarationWithin (known : Known) : Nat → Json → Reader Declaration
  | 0, _ => throw "declaration nested too deeply"
  | fuel + 1, json => do
      return ⟨← textField json "name", ← textsField json "params",
        ← readExpressionWithin known fuel (← field json "body")⟩

def readStatementWithin (known : Known) : Nat → Json → Reader Statement
  | 0, _ => throw "statement nested too deeply"
  | fuel + 1, json => do
      let readInner := readExpressionWithin known fuel
      let declarations ←
        (← listField json "declarations").mapM (readDeclarationWithin known fuel)
      let scripts ← (← listField json "scripts").mapM readScript
      let select ← (← listField json "select").mapM (fun item => do
        return SelectItem.mk (← readInner (← field item "e")) (← optionalText item "as"))
      let streams ← (← listField json "from").mapM readSource
      let filter ← (optional json "where").mapM readInner
      let groupBy ← (← listField json "groupBy").mapM readInner
      let having ← (optional json "having").mapM readInner
      return ⟨← textField json "name", ← optionalText json "text", ← optionalText json "context",
        declarations, scripts, select, streams, filter, groupBy, having⟩

end

def readExpression (known : Known) (json : Json) : Reader Expression :=
  readExpressionWithin known (json.depth + 1) json

def readDeclaration (known : Known) (json : Json) : Reader Declaration :=
  readDeclarationWithin known (json.depth + 1) json

def readStatement (known : Known) (json : Json) : Reader Statement :=
  readStatementWithin known (json.depth + 1) json

end EventQuery.Exchange
