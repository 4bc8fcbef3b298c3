import EventQuery.Exchange.Types
import EventQuery.Expression
import EventQuery.Getter

set_option autoImplicit false

/-! Values and events in the exchange format. An event is written with a label, which stands for
its identity; values and events that were handed over before may be referred to by name. -/

namespace EventQuery.Exchange

structure Known where
  registry : Registry
  values : List (String × Value)
  events : List (String × Event)
  nodes : List (String × Expression)

/-- Reading with a supply of fresh identities. -/
abbrev Reader (α : Type) := ExceptT String (StateM Nat) α

def freshIdentity : Reader Nat :=
  modifyGet (fun next => (next, next + 1))

mutual

def xmlNode : XmlNode → Json
  | ⟨name, attributes, children, text⟩ =>
      obj [("name", str name),
        ("attrs", arr (attributes.map (fun (key, value) => arr [str key, str value]))),
        ("children", arr (xmlNodes children)), ("text", maybe str text)]
termination_by structural node => node

def xmlNodes : List XmlNode → List Json
  | [] => []
  | node :: nodes => xmlNode node :: xmlNodes nodes
termination_by structural nodes => nodes

end

mutual

def value (label : Nat → Json) : Value → Json
  | .null => .null
  | .string text => obj [("s", str text)]
  | .int number => obj [("i", int number.toInt)]
  | .long number => obj [("l", int number.toInt)]
  | .float number => obj [("f", float32 number)]
  | .double number => obj [("d", float64 number)]
  | .bool truth => obj [("b", .bool truth)]
  | .bytes octets =>
      obj [("bytes", str (String.join (octets.map (fun octet => hex 2 octet.toNat))))]
  | .event held => obj [("event", event label held)]
  | .raw inner => store label inner
termination_by structural held => held

def store (label : Nat → Json) : Store → Json
  | .map entries => obj [("map", obj (valueMembers label entries))]
  | .array values => obj [("array", arr (valueList label values))]
  | .object _ className fields =>
      obj [("object", obj [("class", str className), ("fields", obj (valueMembers label fields))])]
  | .node node => obj [("node", xmlNode node)]
  | .record schema values =>
      obj [("record", obj [("schema", str schema.name), ("values", arr (valueList label values))])]
termination_by structural inner => inner

def event (label : Nat → Json) : Event → Json
  | ⟨identity, type, inner⟩ =>
      obj [("id", label identity), ("type", str type.name), ("underlying", store label inner)]
termination_by structural held => held

def valueMembers (label : Nat → Json) : List (String × Value) → List (String × Json)
  | [] => []
  | (name, held) :: rest => (name, value label held) :: valueMembers label rest
termination_by structural entries => entries

def valueList (label : Nat → Json) : List Value → List Json
  | [] => []
  | held :: rest => value label held :: valueList label rest
termination_by structural values => values

end

/-- A fragment; a new event around a raw value has no label. -/
def fragment (label : Nat → Json) : Fragment → Json
  | .held held => event label held
  | .wrapped type inner =>
      obj [("id", .null), ("type", str type.name), ("underlying", store label inner)]

def readNodeWithin : Nat → Json → Reader XmlNode
  | 0, _ => throw "element nested too deeply"
  | fuel + 1, json => do
      let attributes ← (← listField json "attrs").mapM (fun pair => do
        let (key, held) ← pairOf pair
        return (← textOf key, ← textOf held))
      let children ← (← listField json "children").mapM (readNodeWithin fuel)
      return ⟨← textField json "name", attributes, children, ← optionalText json "text"⟩

def readValueWithin (known : Known) : Nat → Json → Reader Value
  | 0, _ => throw "value nested too deeply"
  | fuel + 1, json => do
      let members (json : Json) : Reader (List (String × Value)) := do
        (← membersOf json).mapM (fun (name, inner) => do
          return (name, ← readValueWithin known fuel inner))
      match json with
      | .null => return .null
      | .object [("s", held)] => return .string (← textOf held)
      | .object [("i", held)] => return .int (Int32.ofInt (← intOf held))
      | .object [("l", held)] => return .long (Int64.ofInt (← intOf held))
      | .object [("f", held)] => return .float (← float32Of held)
      | .object [("d", held)] => return .double (← float64Of held)
      | .object [("b", held)] => return .bool (← boolOf held)
      | .object [("bytes", held)] => return .bytes (← bytesOf (← textOf held).toList)
      | .object [("map", held)] => return .raw (.map (← members held))
      | .object [("array", held)] =>
          return .raw (.array (← (← listOf held).mapM (readValueWithin known fuel)))
      | .object [("object", held)] =>
          let fields ← members ((optional held "fields").getD (.object []))
          return .raw (.object (← freshIdentity) (← textField held "class") fields)
      | .object [("node", held)] => return .raw (.node (← readNodeWithin fuel held))
      | .object [("record", held)] =>
          let schema ← readSchema known.registry held
          let values ← (← listField held "fields").foldlM (fun values pair => do
            let (name, inner) ← pairOf pair
            let inner ← readValueWithin known fuel inner
            return (Store.putField? schema values (← textOf name) inner).getD values)
            (Store.emptyRecord schema)
          return .raw (.record schema values)
      | .object [("event", held)] => return .event (← named known.events (← textOf held))
      | .object [("ref", held)] => named known.values (← textOf held)
      | _ => throw "not a value"

def readValue (known : Known) (json : Json) : Reader Value :=
  readValueWithin known (json.depth + 1) json

end EventQuery.Exchange
