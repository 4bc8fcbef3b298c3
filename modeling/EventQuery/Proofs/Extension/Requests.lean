import EventQuery.Proofs.Checked
import EventQuery.Proofs.Registration.Batches
import EventQuery.Proofs.Sharing.Families

set_option autoImplicit false

/-! Requests to register something: types, a variable, a table or a family of functions. Each is
accepted or refused, and either way whatever was found under a name before is found there
afterwards. -/

namespace EventQuery.Services

inductive Request where
  | type (type : EventType)
  | types (batch : List EventType)
  | variable (definition : VariableDefinition)
  | table (definition : TableDefinition)
  | family (family : FunctionFamily)

def register (services : Services) : Request → Except ConfigurationError Services
  | .type type => services.registerType type
  | .types batch => services.registerTypes batch
  | .variable definition => services.registerVariable definition
  | .table definition => services.registerTable definition
  | .family family => services.addFamily family

/-- The services after a request, which are the same if it was refused. -/
def after (services : Services) (request : Request) : Services :=
  (services.register request).toOption.getD services

/-- Whatever is found under a name in the services is found there in the later ones, and what is
declared, the factories and the treatment of texts are the same. -/
structure Extends (services later : Services) : Prop where
  registry : services.registry.Grows later.registry
  variableNamed? : ∀ name definition, services.variableNamed? name = some definition →
    later.variableNamed? name = some definition
  table? : ∀ name table, services.table? name = some table → later.table? name = some table
  family? : ∀ name family, services.family? name = some family →
    later.family? name = some family
  declarations : later.declarations = services.declarations
  factories : later.factories = services.factories
  attachText : later.attachText = services.attachText

variable {services between later : Services}

namespace Extends

theorem refl (services : Services) : services.Extends services where
  registry := .refl _
  variableNamed? _ _ found := found
  table? _ _ found := found
  family? _ _ found := found
  declarations := rfl
  factories := rfl
  attachText := rfl

theorem trans (first : services.Extends between) (second : between.Extends later) :
    services.Extends later where
  registry name type found := second.registry name type (first.registry name type found)
  variableNamed? name definition found :=
    second.variableNamed? name definition (first.variableNamed? name definition found)
  table? name table found := second.table? name table (first.table? name table found)
  family? name family found := second.family? name family (first.family? name family found)
  declarations := second.declarations.trans first.declarations
  factories := second.factories.trans first.factories
  attachText := second.attachText.trans first.attachText

end Extends

theorem extends_of_registry {registry : Registry} (grows : services.registry.Grows registry) :
    services.Extends { services with registry := registry } :=
  { Extends.refl services with registry := grows }

theorem extends_of_registerVariable {definition : VariableDefinition}
    (accepted : services.registerVariable definition = .ok later) : services.Extends later := by
  unfold registerVariable at accepted
  split at accepted
  · cases accepted
  · cases accepted
    refine { Extends.refl services with variableNamed? := ?_ }
    intro name known found
    unfold variableNamed? at found ⊢
    rw [List.find?_append, found, Option.some_or]

theorem extends_of_registerTable {definition : TableDefinition}
    (accepted : services.registerTable definition = .ok later) : services.Extends later := by
  unfold registerTable at accepted
  split at accepted
  · cases accepted
  · split at accepted
    · cases accepted
    · cases accepted
      refine { Extends.refl services with table? := ?_ }
      intro name known found
      unfold table? at found ⊢
      rw [List.find?_append, found, Option.some_or]

theorem extends_of_addFamily {family : FunctionFamily}
    (accepted : services.addFamily family = .ok later) : services.Extends later := by
  obtain ⟨free, mapped, _⟩ := mapping_of_addFamily accepted
  subst mapped
  refine { Extends.refl services with family? := ?_ }
  intro name known found
  -- The names of an accepted family were free, so the name that is found is none of them.
  have other : name ∉ family.functions := by
    intro member
    rw [free name member] at found
    cases found
  exact (lookup_putAll services.functions family family.functions name).trans
    ((if_neg other).trans found)

theorem extends_of_register {request : Request} (accepted : services.register request = .ok later) :
    services.Extends later := by
  cases request with
  | type type =>
      obtain ⟨registry, registered, rfl⟩ := Checked.map_eq_ok_iff.mp accepted
      exact extends_of_registry (Registry.grows_of_register registered)
  | types batch =>
      obtain ⟨registry, registered, rfl⟩ := Checked.map_eq_ok_iff.mp accepted
      exact extends_of_registry (Registry.grows_of_registerAll registered)
  | «variable» definition => exact extends_of_registerVariable accepted
  | table definition => exact extends_of_registerTable accepted
  | family family => exact extends_of_addFamily accepted

theorem extends_after (services : Services) (request : Request) :
    services.Extends (services.after request) := by
  unfold after
  cases answer : services.register request with
  | error failure => exact .refl services
  | ok later => exact extends_of_register answer

theorem variableNamed?_after {definition : VariableDefinition}
    (free : services.variableNamed? definition.name = none) :
    (services.after (.variable definition)).variableNamed? definition.name = some definition := by
  unfold after register registerVariable
  simp only [free, Except.toOption, Option.getD_some]
  unfold variableNamed? at free ⊢
  rw [List.find?_append, free, Option.none_or, List.find?_cons_of_pos]
  exact decide_eq_true rfl

end EventQuery.Services
