import EventQuery.Definition
import EventQuery.Document.Json.Printer
import EventQuery.Exchange.Statements
import EventQuery.Statement.Spec

set_option autoImplicit false

/-! Resolved expressions and what else belongs to a compiled statement in the exchange format.
What has no order of its own is written in ascending order. -/

namespace EventQuery.Exchange

def compiledProperty (compiled : CompiledProperty) : List (String × Json) :=
  [("type", typeName compiled.type),
    ("fragment", maybe (fun type => str (EventType.name type)) compiled.fragment),
    ("repr", str compiled.getter.representation.name)]

def resultType : ResultType → Json
  | .scalar type => arr [str "scalar", typeName type]
  | .scalars type => arr [str "scalars", typeName type]
  | .events type => arr [str "events", str type.name]
  | .event type => arr [str "event", str type.name]

def kind : Resolved → String
  | .constant _ => "const"
  | .property _ _ _ => "prop"
  | .wildcard _ _ => "star"
  | .variable _ _ => "var"
  | .table _ _ _ => "table"
  | .substitution _ _ => "subst"
  | .prior _ _ _ => "prior"
  | .declared _ _ => "decl"
  | .script _ _ => "script"
  | .aggregation _ _ _ => "agg"
  | .subquery _ _ => "sub"
  | .math _ _ _ _ _ => "math"
  | .compare _ _ _ _ => "cmp"
  | .and _ _ => "and"
  | .or _ _ => "or"
  | .not _ => "not"

def resolvedWith (tree : Resolved) (members : List (String × Json)) : Json :=
  obj ([("k", str (kind tree)), ("t", typeName tree.valueType)] ++ members)

mutual

def resolved : Resolved → Json
  | .constant held => resolvedWith (.constant held) [("value", constant held)]
  | .property stream path compiled =>
      resolvedWith (.property stream path compiled)
        [("stream", nat stream), ("path", str path), ("property", obj (compiledProperty compiled))]
  | .wildcard stream type =>
      resolvedWith (.wildcard stream type) [("stream", nat stream), ("type", str type.name)]
  | .variable name type => resolvedWith (.variable name type) [("name", str name)]
  | .table node keys type =>
      resolvedWith (.table node keys type)
        [("table", str node.table), ("column", maybe str node.column),
          ("keys", arr (resolvedAll keys))]
  | .substitution slot type => resolvedWith (.substitution slot type) [("slot", nat slot)]
  | .prior index stream compiled =>
      resolvedWith (.prior index stream compiled)
        [("index", nat index), ("stream", nat stream),
          ("property", obj (compiledProperty compiled))]
  | .declared name body =>
      resolvedWith (.declared name body) [("name", str name), ("body", resolved body)]
  | .script called arguments =>
      resolvedWith (.script called arguments)
        [("name", str called.name), ("arity", nat called.parameters.length),
          ("args", arr (resolvedAll arguments))]
  | .aggregation site place result =>
      resolvedWith (.aggregation site place result)
        [("site", nat site), ("at", position place), ("result", maybe resultType result)]
  | .subquery index type => resolvedWith (.subquery index type) [("index", nat index)]
  | .math operator left right place type =>
      resolvedWith (.math operator left right place type)
        [("op", str operator.name), ("left", resolved left), ("right", resolved right),
          ("at", position place)]
  | .compare operator left right place =>
      resolvedWith (.compare operator left right place)
        [("op", str operator.name), ("left", resolved left), ("right", resolved right),
          ("at", position place)]
  | .and left right =>
      resolvedWith (.and left right) [("left", resolved left), ("right", resolved right)]
  | .or left right =>
      resolvedWith (.or left right) [("left", resolved left), ("right", resolved right)]
  | .not inner => resolvedWith (.not inner) [("inner", resolved inner)]
termination_by structural tree => tree

def resolvedAll : List Resolved → List Json
  | [] => []
  | tree :: rest => resolved tree :: resolvedAll rest
termination_by structural trees => trees

end

def handler (held : Handler) : Json :=
  obj [("result", resultType held.resultType),
    ("valueType", typeName held.resultType.valueType), ("stateKey", str held.stateKey.text)]

def aggregationKey (key : AggregationKey) : Json :=
  obj [("name", str key.name), ("signature", arr (key.signature.map str))]

def compiledAggregation (held : CompiledAggregation) : Json :=
  obj [("function", str held.function), ("key", aggregationKey held.key),
    ("handler", handler held.handler), ("slot", nat held.slot)]

def family (held : FunctionFamily) : Json :=
  let properties := held.properties.mergeSort (fun left right => left.1 ≤ right.1)
  obj [("functions", arr (held.functions.map str)), ("factory", str held.factory),
    ("properties", arr (properties.map (fun (name, setting) => arr [str name, setting])))]

def variableDefinition (held : VariableDefinition) : Json :=
  arr [str held.name, typeName held.type, .bool held.constant]

def tableDefinition (held : TableDefinition) : Json :=
  obj [("name", str held.name),
    ("columns", arr (held.columns.map (fun column => arr [str column.name, typeName column.type]))),
    ("keys", arr (held.keys.map str))]

def sortedTexts (texts : List String) : Json :=
  arr ((texts.mergeSort (fun left right => left ≤ right)).map str)

def sortedDeclarations (declarations : List (String × Declaration)) : Json :=
  let sorted := declarations.mergeSort (fun left right => left.1 ≤ right.1)
  arr (sorted.map (fun entry => declaration entry.2))

def sortedTables (tables : List TableAccess) : Json :=
  let written := tables.map tableAccess
  arr (written.mergeSort (fun left right => left.print ≤ right.print))

def symbolMembers (contextName : Option String) (hasPrior : Bool) (variableNames : List String)
    (tables : List TableAccess) (declarations : List (String × Declaration))
    (scripts : List Script) (substitutions : List SubstitutionNode) : List (String × Json) :=
  [("context", maybe str contextName), ("prior", .bool hasPrior),
    ("variables", sortedTexts variableNames), ("tables", sortedTables tables),
    ("declarations", sortedDeclarations declarations), ("scripts", arr (scripts.map script)),
    ("substitutions", arr (substitutions.map substitutionNode))]

def contextMembers (symbols : SymbolContext) : List (String × Json) :=
  symbolMembers symbols.contextName symbols.hasPrior symbols.variableNames symbols.tables
    symbols.declarations symbols.scripts symbols.substitutions ++
  [("registry", .bool symbols.forges.isSome)]

def specMembers (spec : StatementSpec) : List (String × Json) :=
  symbolMembers spec.contextName spec.hasPrior spec.variableNames spec.tables spec.declarations
    spec.scripts spec.substitutions ++
  [("name", str spec.name), ("text", maybe str spec.text),
    ("tableCount", nat spec.tables.length), ("substitutionCount", nat spec.substitutions.length),
    ("streams", arr (spec.streams.map (fun stream => arr [str stream.name, str stream.type.name]))),
    ("select", arr (spec.select.map (fun column =>
      arr [str column.name, resolved column.expression]))),
    ("where", maybe resolved spec.filter), ("groupBy", arr (spec.groupBy.map resolved)),
    ("having", maybe resolved spec.having),
    ("aggregations", arr (spec.aggregations.map compiledAggregation)),
    ("states", arr (spec.states.map (fun state => str state.key.text)))]

end EventQuery.Exchange
