import EventQuery.Statement.Spec

set_option autoImplicit false

/-! Binding of values to the substitution parameters of a compiled statement. Unnamed parameters
are bound by position and named ones by name; a name that occurs at several places fills each
of them. The bound values stand in the order of the slots. -/

namespace EventQuery.StatementSpec

def bindsByName (spec : StatementSpec) : Bool :=
  spec.substitutions.any (fun node => node.name.isSome)

def checkBinding (node : SubstitutionNode) (slot : Nat) (value : Value) :
    Except ValidationError Unit :=
  match node.declaredType with
  | some declared =>
      if value.fits declared then
        .ok ()
      else
        .error (.typeMismatch (node.name.getD s!"?{slot + 1}") (.binding declared value.type?))
  | none => .ok ()

def checkPositions : Nat → List SubstitutionNode → List Value → Except ValidationError Unit
  | slot, node :: nodes, value :: values => do
      checkBinding node slot value
      checkPositions (slot + 1) nodes values
  | _, _, _ => .ok ()

def preparePositional (spec : StatementSpec) (values : List Value) :
    Except ValidationError (List Value) :=
  if spec.bindsByName then
    .error (.invalidSubstitution .boundByName)
  else if values.length ≠ spec.substitutions.length then
    .error (.substitutionCountMismatch spec.substitutions.length values.length)
  else
    (checkPositions 0 spec.substitutions values).map (fun _ => values)

def parameterNames (spec : StatementSpec) : List String :=
  (spec.substitutions.filterMap SubstitutionNode.name).foldl SymbolContext.addName []

def valuesByName (values : List (String × Value)) :
    Nat → List SubstitutionNode → Except ValidationError (List Value)
  | _, [] => .ok []
  | slot, node :: nodes => do
      let name := node.name.getD ""
      match values.lookup name with
      | none => throw (.invalidSubstitution (.missing name))
      | some value =>
          checkBinding node slot value
          let rest ← valuesByName values (slot + 1) nodes
          return value :: rest

/-- Binds values by name; each name has one value. -/
def prepareNamed (spec : StatementSpec) (values : List (String × Value)) :
    Except ValidationError (List Value) :=
  if !spec.substitutions.isEmpty && !spec.bindsByName then
    .error (.invalidSubstitution .boundByPosition)
  else if values.length ≠ spec.parameterNames.length then
    .error (.substitutionCountMismatch spec.parameterNames.length values.length)
  else
    valuesByName values 0 spec.substitutions

end EventQuery.StatementSpec
