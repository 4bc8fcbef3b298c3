import EventQuery.Getter
import EventQuery.Registry
import EventQuery.Text.Segments

set_option autoImplicit false

/-! Getters for property paths. A path is checked while its getter is built: every segment must
be a declared property, and every segment but the last must be a fragment whose type is
registered. -/

namespace EventQuery

namespace Getter

def fragmentType (registry : Registry) (type : EventType) (property : PropertyDescriptor) :
    Except ValidationError (Option EventType) :=
  match property.fragment with
  | none => .ok none
  | some name =>
      match registry.find? name with
      | some fragment => .ok (some fragment)
      | none =>
          .error (.invalidProperty type.name property.name (.unknownFragment name))

/-- Child elements and nested records are read in place, so they become events of their own
representation only. -/
def checkFragment (type : EventType) (property : String) (fragment : Option EventType) :
    Except ValidationError Unit :=
  match type, fragment with
  | .xml _ _ _, some fragment =>
      if fragment.representation = .xml then .ok ()
      else .error (.invalidProperty type.name property (.fragmentNotTree fragment.name))
  | .avro _, some fragment =>
      if fragment.representation = .avro then .ok ()
      else .error (.invalidProperty type.name property (.fragmentNotRecord fragment.name))
  | _, _ => .ok ()

def ofDeclared? (type : EventType) (property : PropertyDescriptor) (fragment : Option EventType) :
    Option Getter :=
  match type with
  | .map _ _ => some (.mapEntry property.name fragment)
  | .objectArray _ _ =>
      (type.propertyIndex? property.name).map (fun index => .arraySlot index fragment)
  | .bean _ _ properties =>
      (properties.find? (fun candidate => candidate.descriptor.name = property.name)).map
        (fun found => .beanField found.accessor fragment)
  | .xml _ _ _ => some (.xmlProperty property.name property.type fragment)
  | .avro schema =>
      (schema.fieldPosition? property.name).map (fun position => .recordField position fragment)

/-- Why a declared property of a type has no getter. -/
def unplaced : EventType → PropertyFault
  | .bean _ className _ => .noAccessor className
  | .avro schema => .noField schema.name
  | _ => .noPosition

def ofProperty (registry : Registry) (type : EventType) (name : String) :
    Except ValidationError CompiledProperty :=
  match type.property? name with
  | none => .error (.invalidProperty type.name name .unknown)
  | some property => do
      let fragment ← fragmentType registry type property
      checkFragment type name fragment
      match ofDeclared? type property fragment with
      | some getter => return ⟨getter, property.type, fragment⟩
      | none => throw (.invalidProperty type.name name (unplaced type))

/-- The getter of a path that is given by its segments. A failure names the part of the path
that was left when it was found. -/
def ofSegments (registry : Registry) : EventType → List String →
    Except ValidationError CompiledProperty
  | type, [] => .error (.invalidProperty type.name "" .emptyName)
  | type, [name] =>
      if name = "" then
        .error (.invalidProperty type.name name .emptyName)
      else
        ofProperty registry type name
  | type, head :: next :: rest =>
      let path := Text.dotted (head :: next :: rest)
      if head = "" then
        .error (.invalidProperty type.name path .emptyName)
      else do
        let outer ← ofProperty registry type head
        match outer.fragment with
        | none => throw (.invalidProperty type.name path (.notNavigable head))
        | some fragment =>
            let inner ← ofSegments registry fragment (next :: rest)
            return ⟨.nested outer.getter inner.getter fragment, inner.type, inner.fragment⟩

def ofPath (registry : Registry) (type : EventType) (path : String) :
    Except ValidationError CompiledProperty :=
  ofSegments registry type (Text.segments path)

def ofPosition (type : EventType) (index : Nat) : Except ValidationError Getter :=
  let subject := s!"[{index}]"
  if type.representation = .objectArray then
    if index < type.properties.length then
      .ok (.arraySlot index none)
    else
      .error (.invalidProperty type.name subject (.indexOutOfRange index type.properties.length))
  else
    .error (.invalidProperty type.name subject (.notPositional type.representation))

end Getter

end EventQuery
