import EventQuery.Proofs.Registration.Admission
import EventQuery.Proofs.Sharing.Families

set_option autoImplicit false

/-! The order of event types, in a batch and in a configuration. Besides the types nothing of a
configuration looks at the registry, so the services that it gives differ in the order of their
types at most. -/

namespace EventQuery

namespace Checked

variable {ε α β : Type}

/-- Two checks both fail, or both succeed with results that are related. -/
inductive Alike (related : α → α → Prop) : Except ε α → Except ε α → Prop
  | ok {first second : α} : related first second → Alike related (.ok first) (.ok second)
  | error {first second : ε} : Alike related (.error first) (.error second)

namespace Alike

variable {related : α → α → Prop} {check other last : Except ε α}

theorem refl (reflexive : ∀ value, related value value) (check : Except ε α) :
    Alike related check check := by
  cases check with
  | ok value => exact .ok (reflexive value)
  | error failure => exact .error

theorem trans (transitive : ∀ first second third, related first second → related second third →
    related first third) (early : Alike related check other) (late : Alike related other last) :
    Alike related check last := by
  cases early with
  | ok first =>
      cases late with
      | ok second => exact .ok (transitive _ _ _ first second)
  | error =>
      cases late with
      | error => exact .error

theorem holds (alike : Alike related check other) {first second : α} (ok : check = .ok first)
    (found : other = .ok second) : related first second := by
  cases alike with
  | ok same =>
      cases ok
      cases found
      exact same
  | error => cases ok

theorem bind {later : β → β → Prop} {next rest : α → Except ε β} (alike : Alike related check other)
    (each : ∀ value found, related value found → Alike later (next value) (rest found)) :
    Alike later (check >>= next) (other >>= rest) := by
  cases alike with
  | ok same => exact each _ _ same
  | error => exact .error

theorem map {later : β → β → Prop} {change : α → β} (alike : Alike related check other)
    (each : ∀ value found, related value found → later (change value) (change found)) :
    Alike later (check.map change) (other.map change) := by
  cases alike with
  | ok same => exact .ok (each _ _ same)
  | error => exact .error

theorem foldlM {step : α → β → Except ε α}
    (each : ∀ value found item, related value found → Alike related (step value item)
      (step found item)) (items : List β) {value found : α} (same : related value found) :
    Alike related (items.foldlM step value) (items.foldlM step found) := by
  induction items generalizing value found with
  | nil => exact .ok same
  | cons item items ih =>
      rw [List.foldlM_cons, List.foldlM_cons]
      exact (each value found item same).bind (fun _ _ => ih)

theorem mapM_of_perm {check : α → Except ε β} {items others : List α}
    (reordered : items.Perm others) :
    Alike List.Perm (items.mapM check) (others.mapM check) := by
  induction reordered with
  | nil => exact .ok (.refl _)
  | cons item _ ih =>
      rw [List.mapM_cons, List.mapM_cons]
      refine (refl (fun _ => rfl) (check item)).bind (fun result _ same => ?_)
      subst same
      exact ih.bind (fun _ _ results => .ok (results.cons result))
  | swap first second rest =>
      simp only [List.mapM_cons]
      cases check first with
      | error failure => cases check second <;> exact .error
      | ok result =>
          cases check second with
          | error failure => exact .error
          | ok other =>
              cases rest.mapM check with
              | error failure => exact .error
              | ok results => exact .ok (.swap result other results)
  | trans _ _ early late => exact early.trans (fun _ _ _ => .trans) late

end Alike

end Checked

open Checked

theorem Registry.Closed.registerAll_alike {registry : Registry} (closed : registry.Closed)
    {batch other : List EventType} (reordered : batch.Perm other) :
    Alike SameTypes (registry.registerAll batch) (registry.registerAll other) := by
  have iff : (∃ later, registry.registerAll batch = .ok later) ↔
      ∃ later, registry.registerAll other = .ok later := by
    rw [exists_registerAll_iff, exists_registerAll_iff]
    exact ⟨fun admits => admits.of_perm reordered, fun admits => admits.of_perm reordered.symm⟩
  cases first : registry.registerAll batch with
  | error failure =>
      cases second : registry.registerAll other with
      | error otherFailure => exact .error
      | ok later =>
          obtain ⟨_, accepted⟩ := iff.mpr ⟨later, second⟩
          cases first.symm.trans accepted
  | ok later =>
      obtain ⟨otherLater, second⟩ := iff.mp ⟨later, first⟩
      rw [second]
      obtain ⟨added, accepts, rfl⟩ := accepts_of_registerAll first
      obtain ⟨otherAdded, otherAccepts, rfl⟩ := accepts_of_registerAll second
      exact .ok (accepts.sameTypes_grown otherAccepts reordered closed)

namespace Services

def withRegistry (services : Services) (registry : Registry) : Services :=
  { services with registry := registry }

/-- The services differ in the order of their event types at most. -/
structure Matches (services other : Services) : Prop where
  types : services.registry.SameTypes other.registry
  rest : other = services.withRegistry other.registry

/-- The registration neither looks at the event types nor changes them. -/
def Indifferent (register : Services → Except ConfigurationError Services) : Prop :=
  ∀ services registry, register (services.withRegistry registry) =
    (register services).map (fun later => later.withRegistry registry)

theorem indifferent_registerVariable (definition : VariableDefinition) :
    Indifferent (fun services => services.registerVariable definition) := by
  intro services registry
  have same : (services.withRegistry registry).variableNamed? definition.name =
      services.variableNamed? definition.name := rfl
  unfold registerVariable
  dsimp only
  rw [same]
  cases services.variableNamed? definition.name <;> rfl

theorem indifferent_registerTable (definition : TableDefinition) :
    Indifferent (fun services => services.registerTable definition) := by
  intro services registry
  have same : (services.withRegistry registry).table? definition.name =
      services.table? definition.name := rfl
  unfold registerTable
  dsimp only
  rw [same]
  cases definition.keys.find? (fun key => (definition.columnType? key).isNone) with
  | some key => rfl
  | none => cases services.table? definition.name <;> rfl

private theorem run_checkFree_withRegistry (services : Services) (registry : Registry)
    (names : List String) : (checkFree names).run (services.withRegistry registry) =
      (((checkFree names).run services).1, services.withRegistry registry) := by
  induction names with
  | nil => rfl
  | cons name rest ih =>
      have same : (services.withRegistry registry).family? name = services.family? name := rfl
      rw [run_checkFree_cons, run_checkFree_cons, same, ih]
      split <;> rfl

private theorem mapping_withRegistry (services : Services) (registry : Registry)
    (family : FunctionFamily) (names : List String) :
    (services.withRegistry registry).mapping family names =
      (services.mapping family names).withRegistry registry :=
  rfl

private theorem addFamily_eq (services : Services) (family : FunctionFamily) :
    services.addFamily family = ((checkFree family.functions).run services).1.map
      (fun _ => services.mapping family family.functions) := by
  have whole : (enterFamily family).run services =
      ExceptT.bindCont (fun _ => mapFunctions family family.functions)
        ((checkFree family.functions).run services).1
        ((checkFree family.functions).run services).2 := rfl
  unfold addFamily
  rcases services.run_checkFree family.functions with ⟨failure, checked⟩ | ⟨_, checked⟩
  · rw [whole, checked]
    rfl
  · rw [checked] at whole ⊢
    rw [whole.trans (services.run_mapFunctions family family.functions)]
    rfl

theorem indifferent_addFamily (family : FunctionFamily) :
    Indifferent (fun services => services.addFamily family) := by
  intro services registry
  dsimp only
  rw [addFamily_eq, addFamily_eq, run_checkFree_withRegistry, mapping_withRegistry]
  cases ((checkFree family.functions).run services).1 <;> rfl

theorem Indifferent.alike {register : Services → Except ConfigurationError Services}
    (indifferent : Indifferent register) {services other : Services}
    (same : services.Matches other) : Alike Matches (register services) (register other) := by
  have unchanged : register services = _ := indifferent services services.registry
  have changed := indifferent services other.registry
  rw [← same.rest] at changed
  rw [changed]
  cases answer : register services with
  | error failure => exact .error
  | ok later =>
      have kept : later.registry = services.registry := by
        rw [answer] at unchanged
        have own : later = later.withRegistry services.registry := Except.ok.inj unchanged
        calc later.registry = (later.withRegistry services.registry).registry := congrArg _ own
          _ = services.registry := rfl
      exact .ok ⟨kept ▸ same.types, rfl⟩

theorem ofConfiguration_alike (configuration : Configuration) {entries : List EventTypeEntry}
    (reordered : configuration.eventTypes.Perm entries) :
    Alike Matches (ofConfiguration configuration)
      (ofConfiguration { configuration with eventTypes := entries }) := by
  unfold ofConfiguration
  refine (Alike.mapM_of_perm reordered).bind (fun types others same => ?_)
  have registered : Alike Matches
      ((initial.setAttachText configuration.attachText).registerTypes types)
      ((initial.setAttachText configuration.attachText).registerTypes others) :=
    (Registry.closed_empty.registerAll_alike same).map (fun _ _ types => ⟨types, rfl⟩)
  refine registered.bind (fun services other same => ?_)
  refine (Alike.foldlM (fun _ _ definition => (indifferent_registerVariable definition).alike)
    _ same).bind (fun services other same => ?_)
  refine (Alike.foldlM (fun _ _ table => (indifferent_registerTable table).alike)
    _ same).bind (fun services other same => ?_)
  exact Alike.foldlM (fun _ _ family => (indifferent_addFamily family).alike) _ same

end Services

/-- The order of event types matters neither in a batch that a registry is asked to hold nor in
a configuration: both orders are refused, or both are accepted and the same types are found under
the same names afterwards. -/
theorem event_types_order_irrelevant :
    (∀ registry batch other, Registry.Reachable registry → batch.Perm other →
      Alike Registry.SameTypes (registry.registerAll batch) (registry.registerAll other)) ∧
    ∀ configuration entries, configuration.eventTypes.Perm entries →
      Alike Services.Matches (Services.ofConfiguration configuration)
        (Services.ofConfiguration { configuration with eventTypes := entries }) :=
  ⟨fun _ _ _ reachable reordered => reachable.closed.registerAll_alike reordered,
    fun configuration _ reordered => Services.ofConfiguration_alike configuration reordered⟩

private def town : RecordSchema := ⟨"Town", [⟨"name", .scalar .string⟩]⟩

private def journey : RecordSchema :=
  ⟨"Journey", [⟨"start", .record town⟩, ⟨"goal", .record town⟩]⟩

private def postcard : EventType := .map "Postcard" [.ofFragment "origin" "Town"]

private def travels : Configuration :=
  ⟨[⟨"Postcard", .map, [.ofFragment "origin" "Town"], none, none⟩,
    ⟨"Journey", .avro, [], none, some journey⟩], [], [], [], false⟩

/-- A map may come before or after the record with the schema that the map refers to. -/
theorem order_irrelevant_travels :
    (∃ later other, Registry.empty.registerAll [postcard, .avro journey] = .ok later ∧
      Registry.empty.registerAll [.avro journey, postcard] = .ok other ∧ later.SameTypes other) ∧
    ∃ services other, Services.ofConfiguration travels = .ok services ∧
      Services.ofConfiguration { travels with eventTypes := travels.eventTypes.reverse } =
        .ok other ∧ services.Matches other := by
  obtain ⟨batches, configurations⟩ := event_types_order_irrelevant
  have lists := batches .empty _ _ .empty (List.Perm.swap (.avro journey) postcard [])
  have documents := configurations travels _ (List.reverse_perm travels.eventTypes).symm
  exact ⟨⟨_, _, rfl, rfl, lists.holds rfl rfl⟩, _, _, rfl, rfl, documents.holds rfl rfl⟩

end EventQuery
