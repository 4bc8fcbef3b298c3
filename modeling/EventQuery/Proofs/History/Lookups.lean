import EventQuery.Proofs.History.Cache
import EventQuery.Proofs.Registration.Closure

set_option autoImplicit false

/-! Registries that remember the getters they were asked for. Getters are remembered under the name
of the type only, so any type may be asked for, and whichever of a name comes first with a
getter that can be built answers for all types of that name from then on. -/

namespace EventQuery

structure RememberingRegistry where
  registry : Registry
  getters : GetterCache

namespace RememberingRegistry

def empty : RememberingRegistry := ⟨.empty, .empty⟩

/-- What is done with a registry: types are registered, or a getter is asked for, of any type. -/
inductive Call where
  | register (request : Registry.Request)
  | ask (type : EventType) (path : String)

def ask (state : RememberingRegistry) (type : EventType) (path : String) :
    Except ValidationError CompiledProperty × RememberingRegistry :=
  let (answer, getters) := state.getters.compile state.registry type path
  (answer, { state with getters := getters })

def after (state : RememberingRegistry) : Call → RememberingRegistry
  | .register request => { state with registry := (request.run state.registry).2 }
  | .ask type path => (state.ask type path).2

def run (state : RememberingRegistry) (history : List Call) : RememberingRegistry :=
  history.foldl after state

def Call.grown (registry : Registry) : Call → Registry
  | register request => (request.run registry).2
  | ask _ _ => registry

/-- The type that is asked for under a name and a path, if its getter can be built. -/
def Call.builder? (registry : Registry) (name path : String) : Call → Option EventType
  | register _ => none
  | ask type asked =>
      if type.name = name ∧ asked = path ∧ (Getter.ofPath registry type path).isOk then some type
      else none

def firstBuilder? (name path : String) : Registry → List Call → Option EventType
  | _, [] => none
  | registry, call :: rest =>
      (call.builder? registry name path).or (firstBuilder? name path (call.grown registry) rest)

variable {state : RememberingRegistry} {history : List Call} {name path : String}

theorem registry_after (state : RememberingRegistry) (call : Call) :
    (state.after call).registry = call.grown state.registry := by
  cases call <;> rfl

theorem grows_after (state : RememberingRegistry) (call : Call) :
    state.registry.Grows (state.after call).registry := by
  cases call with
  | ask type path => exact .refl _
  | register request =>
      change state.registry.Grows (request.run state.registry).2
      rcases request.run_cases state.registry with ⟨_, same⟩ | ⟨added, _, same⟩
      · rw [same]
        exact .refl _
      · rw [same]
        exact state.registry.grows_grown request.types added

theorem grows_run (history : List Call) (state : RememberingRegistry) :
    state.registry.Grows (state.run history).registry := by
  induction history generalizing state with
  | nil => exact .refl _
  | cons call rest ih =>
      exact fun name type registered => ih (state.after call) name type
        (grows_after state call name type registered)

theorem Call.builder?_eq_some {call : Call} {registry : Registry} {type : EventType}
    (builds : call.builder? registry name path = some type) :
    call = .ask type path ∧ type.name = name ∧
      ∃ compiled, Getter.ofPath registry type path = .ok compiled := by
  cases call with
  | register request => cases builds
  | ask asked other =>
      unfold builder? at builds
      rw [Option.ite_none_right_eq_some] at builds
      obtain ⟨⟨named, rfl, built⟩, same⟩ := builds
      cases same
      refine ⟨rfl, named, ?_⟩
      cases made : Getter.ofPath registry type other with
      | ok compiled => exact ⟨compiled, rfl⟩
      | error failure =>
          rw [made] at built
          cases built

theorem find?_after (state : RememberingRegistry) (call : Call) (name path : String) :
    (state.after call).getters.find? name path =
      (state.getters.find? name path).or ((call.builder? state.registry name path).bind
        (fun type => (Getter.ofPath state.registry type path).toOption)) := by
  cases call with
  | register request => exact (Option.or_none).symm
  | ask type asked =>
      by_cases same : type.name = name ∧ asked = path
      · obtain ⟨rfl, rfl⟩ := same
        simp only [after, ask, GetterCache.compile, Call.builder?, true_and]
        cases remembered : state.getters.find? type.name asked with
        | some compiled => simp only [remembered, Option.some_or]
        | none =>
            cases built : Getter.ofPath state.registry type asked with
            | error failure => simp [remembered, Except.isOk, Except.toBool]
            | ok compiled =>
                simp [GetterCache.find?, Except.isOk, Except.toBool, built, Except.toOption]
      · have nothing : (Call.ask type asked).builder? state.registry name path = none :=
          if_neg (fun all => same ⟨all.1, all.2.1⟩)
        rw [nothing, Option.bind_none, Option.or_none]
        exact GetterCache.find?_compile_of_ne _ _ same

/-- What is remembered under a name and a path is what can be built for the first builder. -/
theorem find?_run (history : List Call) (state : RememberingRegistry) (name path : String) :
    (state.run history).getters.find? name path =
      (state.getters.find? name path).or
        ((firstBuilder? name path state.registry history).bind
          (fun type => (Getter.ofPath (state.run history).registry type path).toOption)) := by
  induction history generalizing state with
  | nil => exact (Option.or_none).symm
  | cons call rest ih =>
      have later : (state.run (call :: rest)) = (state.after call).run rest := rfl
      rw [later, ih, find?_after, registry_after, Option.or_assoc, firstBuilder?]
      congr 1
      cases builds : call.builder? state.registry name path with
      | none => rfl
      | some type =>
          -- What is built now would be built at the end too: registries only grow.
          obtain ⟨_, _, compiled, built⟩ := Call.builder?_eq_some builds
          have grown : state.registry.Grows ((state.after call).run rest).registry :=
            grows_run (call :: rest) state
          rw [Option.some_or, Option.bind_some, Option.bind_some, built,
            Getter.ofPath_grows grown built]
          rfl

theorem firstBuilder?_eq_some {type : EventType}
    (first : firstBuilder? name path state.registry history = some type) :
    .ask type path ∈ history ∧ type.name = name ∧
      ∃ compiled, Getter.ofPath (state.run history).registry type path = .ok compiled := by
  induction history generalizing state with
  | nil => cases first
  | cons call rest ih =>
      unfold firstBuilder? at first
      cases builds : call.builder? state.registry name path with
      | some builder =>
          rw [builds] at first
          cases first
          obtain ⟨rfl, named, compiled, built⟩ := Call.builder?_eq_some builds
          exact ⟨List.mem_cons_self, named, compiled,
            Getter.ofPath_grows (grows_run _ state) built⟩
      | none =>
          rw [builds, Option.none_or, ← registry_after] at first
          obtain ⟨member, rest⟩ := ih first
          exact ⟨List.mem_cons_of_mem _ member, rest⟩

/-- Two answers that nobody can tell apart, the reasons of failures aside. -/
inductive AnswersAlike :
    Except ValidationError CompiledProperty → Except ValidationError CompiledProperty → Prop
  | ok {first second : CompiledProperty} :
      first.type = second.type → first.fragment = second.fragment →
      (∀ store, first.getter.read store = second.getter.read store ∧
        first.getter.present store = second.getter.present store ∧
        first.getter.fragment? store = second.getter.fragment? store) →
      AnswersAlike (.ok first) (.ok second)
  | error {first second : ValidationError} : AnswersAlike (.error first) (.error second)

theorem AnswersAlike.refl (answer : Except ValidationError CompiledProperty) :
    AnswersAlike answer answer := by
  cases answer with
  | ok compiled => exact .ok rfl rfl (fun _ => ⟨rfl, rfl, rfl⟩)
  | error failure => exact .error

theorem answer_eq (history : List Call) (type : EventType) (path : String) :
    ((empty.run history).ask type path).1 =
      Getter.ofPath (empty.run history).registry
        ((firstBuilder? type.name path .empty history).getD type) path := by
  have remembered := find?_run history empty type.name path
  change (empty.run history).getters.find? type.name path = Option.or none _ at remembered
  rw [Option.none_or] at remembered
  unfold ask GetterCache.compile
  rw [remembered]
  cases first : firstBuilder? type.name path empty.registry history with
  | none =>
      have none : firstBuilder? type.name path .empty history = none := first
      rw [none, Option.bind_none, Option.getD_none]
      dsimp only
      cases Getter.ofPath (empty.run history).registry type path <;> rfl
  | some builder =>
      have some : firstBuilder? type.name path .empty history = some builder := first
      obtain ⟨_, _, compiled, built⟩ := firstBuilder?_eq_some first
      rw [some]
      simp only [Option.bind_some, Option.getD_some, built, Except.toOption]

/-- A getter that is asked for is the one that would be built without anything remembered exactly if
the first type of that name whose getter of the path could be built has the same getter. So it
is if nothing but the type itself is asked for under its name. -/
theorem ask_eq_ofPath_iff (history : List Call) (type : EventType) (path : String) :
    (AnswersAlike ((empty.run history).ask type path).1
        (Getter.ofPath (empty.run history).registry type path) ↔
      ∀ builder ∈ firstBuilder? type.name path .empty history,
        AnswersAlike (Getter.ofPath (empty.run history).registry builder path)
          (Getter.ofPath (empty.run history).registry type path)) ∧
    ((∀ asked other, .ask asked other ∈ history → asked.name = type.name → asked = type) →
      ((empty.run history).ask type path).1 =
        Getter.ofPath (empty.run history).registry type path) := by
  rw [answer_eq]
  constructor
  · cases firstBuilder? type.name path .empty history with
    | none => exact iff_of_true (.refl _) (fun _ none => by cases none)
    | some builder =>
        rw [Option.getD_some]
        constructor
        · rintro alike _ ⟨⟩
          exact alike
        · intro all
          exact all builder rfl
  · intro alone
    cases first : firstBuilder? type.name path .empty history with
    | none => rfl
    | some builder =>
        have builds : firstBuilder? type.name path empty.registry history = some builder := first
        obtain ⟨member, named, _⟩ := firstBuilder?_eq_some builds
        rw [Option.getD_some, alone builder path member named]

/-- Two types of one name, which store a property at different positions. -/
def narrow : EventType := .objectArray "S" [.scalar "a" .int]

def wide : EventType := .objectArray "S" [.scalar "b" .int, .scalar "a" .int]

/-- The getter of the type that is asked for first reads the events of the other one at the wrong
position. -/
theorem not_alike_narrow_wide :
    ¬ AnswersAlike ((empty.run [.ask narrow "a"]).ask wide "a").1
      (Getter.ofPath (empty.run [.ask narrow "a"]).registry wide "a") := by
  have remembered : ((empty.run [.ask narrow "a"]).ask wide "a").1 =
      .ok ⟨.arraySlot 0 none, .int, none⟩ := rfl
  have built : Getter.ofPath (empty.run [.ask narrow "a"]).registry wide "a" =
      .ok ⟨.arraySlot 1 none, .int, none⟩ := rfl
  rw [remembered, built]
  intro alike
  cases alike with
  | ok _ _ same => cases (same (.array [.int 1, .int 2])).1

end RememberingRegistry

end EventQuery
