import EventQuery.Proofs.Extension.Probing
import EventQuery.Proofs.Extension.Survival
import EventQuery.Proofs.History.Session

set_option autoImplicit false

/-! Statements outlive registrations. Whatever a session registers after a statement was compiled,
the statement gives the same spec again, up to the numbers of forges, if and only if the session
was not asked for getters that its registered types do not have. -/

namespace EventQuery

open Resolution

def CompilerMemory.unasked (memory : CompilerMemory) : CompilerMemory :=
  ⟨memory.getters, .empty⟩

/-- The later memory answers the same about registered types, and its forges come later. -/
structure CompilerMemory.Continues (services : Services) (memory later : CompilerMemory) :
    Prop where
  answers : ∀ type, services.registry.find? type.name = some type → ∀ path,
    later.getters.answer services.registry type path =
      memory.getters.answer services.registry type path
  settled : later.workshop.Settled
  grown : memory.workshop.nextIdentity ≤ later.workshop.nextIdentity

def CompilerMemory.past (memory : CompilerMemory) (settled : memory.workshop.Settled)
    (registry : Registry) : Past :=
  ⟨registry, memory.workshop, settled, _,
    GetterCache.indistinct_answer memory.getters registry⟩

theorem CompilerMemory.past_precedes {memory : CompilerMemory}
    (settled : memory.workshop.Settled) (registry : Registry) :
    (memory.past settled registry).Precedes memory.unasked memory where
  workshop := (Workshop.empty_after memory.workshop).symm
  settled := Workshop.settled_empty
  freshGetters _ _ _ := rfl
  laterGetters _ _ _ := rfl

theorem Services.compile_of_settled (services : Services) {memory : CompilerMemory}
    (settled : memory.workshop.Settled) (order : Nat → List Nat) (statement : Statement) :
    let outcome := services.compile order statement memory
    outcome.result = (services.compile order statement memory.unasked).result.map
        (StatementSpec.renamed memory.workshop.renumber) ∧
      outcome.symbols = .empty ∧ memory.Continues services outcome.memory := by
  obtain ⟨result, symbols, precedes⟩ := compile_of_precedes
    (rfl : services.registry = (memory.past settled services.registry).registry)
    (CompilerMemory.past_precedes settled services.registry) order statement
  refine ⟨result, symbols, precedes.laterGetters, precedes.settled_later, ?_⟩
  rw [precedes.workshop]
  exact Nat.le_add_right _ _

theorem Services.makes_oblivious_initial : Services.initial.Makes ForgeBehaviour.Oblivious := by
  intro entry known family behaviour created
  cases List.mem_singleton.mp known
  exact oblivious_of_collect created

namespace CompilerSession

/-- The session may have asked for the getters of any types, registered or not. -/
inductive Attainable : CompilerSession → Prop
  | start : Attainable start
  | step {session later : CompilerSession} : Attainable session → Step session later →
      Attainable later
  | ask {session : CompilerSession} (type : EventType) (path : String) : Attainable session →
      Attainable { session with memory := { session.memory with
        getters := (session.memory.getters.compile session.services.registry type path).2 } }

inductive Action where
  | register (request : Services.Request)
  | compile (order : Nat → List Nat) (statement : Statement)

def next (session : CompilerSession) : Action → CompilerSession
  | .register request => { session with services := session.services.after request }
  | .compile order statement => session.afterCompile order statement

def run (session : CompilerSession) (actions : List Action) : CompilerSession :=
  actions.foldl next session

/-- The later session has all that the session has, and what it answers about the registered
types. -/
structure Continues (session later : CompilerSession) : Prop where
  symbols : later.symbols = .empty
  services : session.services.Extends later.services
  retains : session.memory.getters.Retains later.memory.getters session.services.registry
    later.services.registry
  settled : later.memory.workshop.Settled
  grown : session.memory.workshop.nextIdentity ≤ later.memory.workshop.nextIdentity

variable {session later : CompilerSession}

theorem Attainable.settled (attainable : session.Attainable) :
    session.symbols = .empty ∧ session.memory.workshop.Settled := by
  induction attainable with
  | start => exact ⟨rfl, Workshop.settled_empty⟩
  | ask type path _ ih => exact ih
  | @step session later _ step ih =>
      cases step with
      | register registers => exact ih
      | ask path registered => exact ih
      | compile order statement =>
          obtain ⟨_, symbols, continues⟩ :=
            session.services.compile_of_settled ih.2 order statement
          unfold afterCompile CompilerSession.compile
          rw [ih.1]
          exact ⟨symbols, continues.settled⟩

namespace Continues

theorem refl (attainable : session.Attainable) : session.Continues session where
  symbols := attainable.settled.1
  services := .refl _
  retains := .refl _ _
  settled := attainable.settled.2
  grown := Nat.le_refl _

theorem next (continues : session.Continues later) (action : Action) :
    session.Continues (later.next action) := by
  cases action with
  | register request =>
      have extended := later.services.extends_after request
      exact { continues with
        services := continues.services.trans extended
        retains := continues.retains.grows extended.registry }
  | compile order statement =>
      obtain ⟨_, symbols, after⟩ :=
        later.services.compile_of_settled continues.settled order statement
      unfold CompilerSession.next afterCompile CompilerSession.compile
      rw [continues.symbols]
      exact { continues with
        symbols := symbols
        retains := continues.retains.of_answers continues.services.registry after.answers
        settled := after.settled
        grown := Nat.le_trans continues.grown after.grown }

theorem run (continues : session.Continues later) (actions : List Action) :
    session.Continues (later.run actions) := by
  induction actions generalizing later with
  | nil => exact continues
  | cons action actions ih => exact ih (continues.next action)

theorem compile (continues : session.Continues later) (attainable : session.Attainable)
    (anchored : session.memory.getters.Anchored session.services)
    (oblivious : session.services.Makes ForgeBehaviour.Oblivious) {order : Nat → List Nat}
    {statement : Statement} {spec : StatementSpec}
    (compiled : (session.compile order statement).result = .ok spec) :
    ∃ rename, Function.Injective rename ∧
      (later.compile order statement).result = .ok (spec.renamed rename) := by
  obtain ⟨symbols, settled⟩ := attainable.settled
  obtain ⟨result, _, _⟩ := session.services.compile_of_settled settled order statement
  obtain ⟨laterResult, _, _⟩ := later.services.compile_of_settled continues.settled order statement
  unfold CompilerSession.compile at compiled ⊢
  rw [symbols] at compiled
  rw [continues.symbols]
  obtain ⟨bare, bareCompiled, rfl⟩ := Checked.map_eq_ok_iff.mp (result.symm.trans compiled)
  have survives : CompilerMemory.Survives session.services later.services session.memory.unasked
      later.memory.unasked := ⟨anchored, continues.retains, .refl_empty⟩
  have again := compile_within continues.services oblivious survives bareCompiled
  have offset := Nat.sub_add_cancel continues.grown
  refine ⟨fun identity => (later.memory.workshop.nextIdentity -
    session.memory.workshop.nextIdentity) + identity, ?_, ?_⟩
  · intro first second same
    exact Nat.add_left_cancel same
  · refine laterResult.trans ?_
    rw [again, StatementSpec.renamed_renamed]
    refine congrArg (fun rename => Except.ok (bare.renamed rename)) ?_
    funext identity
    unfold Workshop.renumber
    dsimp only [Function.comp_apply]
    rw [← Nat.add_assoc, offset]

end Continues

theorem taken_over (attainable : session.Attainable) {type : EventType}
    {definition : VariableDefinition} {compiled : CompiledProperty}
    (registered : session.services.registry.find? type.name = some type)
    (answered : session.memory.getters.answer session.services.registry type definition.name =
      .ok compiled)
    (without : ¬ type.Starts definition.name)
    (free : session.services.variableNamed? definition.name = none) :
    let statement := Statement.probing type definition.name
    ∃ spec, (session.compile List.range statement).result = .ok spec ∧
      ∀ rename, (((session.afterCompile List.range statement).run
        [.register (.variable definition)]).compile List.range statement).result ≠
          .ok (spec.renamed rename) := by
  dsimp only
  obtain ⟨spec, first, selected⟩ := compile_probing_of_answer registered without free answered
  refine ⟨spec, ?_, ?_⟩
  · unfold CompilerSession.compile
    rw [attainable.settled.1]
    exact first
  · intro rename same
    have continues := (Continues.refl attainable).run
      [.compile List.range (.probing type definition.name), .register (.variable definition)]
    have named := Services.variableNamed?_after free
    obtain ⟨second, again, selectedAgain⟩ := @compile_probing_of_variable _ _ _
      (session.afterCompile List.range (.probing type definition.name)).memory
      (continues.services.registry _ _ registered) without _ named
    unfold CompilerSession.compile at same
    rw [show ((session.afterCompile List.range (.probing type definition.name)).run
      [.register (.variable definition)]).symbols = .empty from continues.symbols] at same
    obtain rfl : second = spec.renamed rename := Except.ok.inj (again.symm.trans same)
    have kept : (spec.renamed rename).select = spec.select := by
      cases spec
      rfl
    rw [kept, selected] at selectedAgain
    cases selectedAgain

/-- Registrations do not disturb what was compiled, exactly if the session's cache is anchored:
then, and only then, every statement that is compiled in the session gives the same spec again, up
to the numbers of forges, whatever is registered and compiled in between; the factories are taken
to make forges that do not notice what else is registered. The cache of a session that has asked
for getters of registered types only is anchored. -/
theorem Attainable.compile_survives_iff (attainable : session.Attainable)
    (oblivious : session.services.Makes ForgeBehaviour.Oblivious) :
    ((∀ order statement spec, (session.compile order statement).result = .ok spec →
        ∀ actions, ∃ rename, Function.Injective rename ∧
          (((session.afterCompile order statement).run actions).compile order statement).result =
            .ok (spec.renamed rename)) ↔
      session.memory.getters.Anchored session.services) ∧
    (session.Reachable → session.memory.getters.Anchored session.services) := by
  refine ⟨⟨?_, ?_⟩, ?_⟩
  · intro survives type path compiled registered answered
    apply by_contra
    intro astray
    obtain ⟨without, unnamed⟩ := not_or.mp astray
    have free : session.services.variableNamed? path = none := by simpa using unnamed
    obtain ⟨spec, first, other⟩ := @taken_over _ attainable _ ⟨path, .object, false⟩ _ registered
      answered without free
    obtain ⟨rename, _, same⟩ := survives _ _ spec first [.register (.variable _)]
    exact other rename same
  · intro anchored order statement spec compiled actions
    have continues := (Continues.refl attainable).run (.compile order statement :: actions)
    exact continues.compile attainable anchored oblivious compiled
  · intro reachable
    exact reachable.sound.memory.getters.anchored

/-- A session with one type, which was asked for nothing yet. -/
def narrowSession : CompilerSession :=
  { start with services := { Services.initial with registry := ⟨[.map "S" [.scalar "a" .int]]⟩ } }

theorem reachable_narrowSession : narrowSession.Reachable :=
  .step .start (.register (.types (rfl : Services.initial.registerTypes
    [.map "S" [.scalar "a" .int]] = .ok narrowSession.services)))

theorem Reachable.attainable (reachable : session.Reachable) : session.Attainable := by
  induction reachable with
  | start => exact .start
  | step _ step ih => exact .step ih step

theorem compile_survives_narrowSession :
    narrowSession.Attainable ∧ narrowSession.services.Makes ForgeBehaviour.Oblivious ∧
      (∃ spec, (narrowSession.compile List.range
        (.probing (.map "S" [.scalar "a" .int]) "a")).result = .ok spec) ∧
      ∀ order statement spec, (narrowSession.compile order statement).result = .ok spec →
        ∀ actions, ∃ rename, Function.Injective rename ∧
          (((narrowSession.afterCompile order statement).run actions).compile order
            statement).result = .ok (spec.renamed rename) := by
  have attainable := reachable_narrowSession.attainable
  have oblivious : narrowSession.services.Makes ForgeBehaviour.Oblivious :=
    Services.makes_oblivious_initial
  have iff := attainable.compile_survives_iff oblivious
  refine ⟨attainable, oblivious, ?_, iff.1.mpr (iff.2 reachable_narrowSession)⟩
  have compiled : (narrowSession.compile List.range
      (.probing (.map "S" [.scalar "a" .int]) "a")).result.toOption.isSome = true := by
    decide +kernel
  cases result : (narrowSession.compile List.range
      (.probing (.map "S" [.scalar "a" .int]) "a")).result with
  | ok spec => exact ⟨spec, rfl⟩
  | error failure =>
      rw [result] at compiled
      cases compiled

/-- The same session when it was asked for a property that only another type of the name has. -/
def astraySession : CompilerSession :=
  { narrowSession with memory := { narrowSession.memory with
    getters := (narrowSession.memory.getters.compile narrowSession.services.registry
      (.map "S" [.scalar "x" .int]) "x").2 } }

theorem taken_over_astraySession :
    let statement := Statement.probing (.map "S" [.scalar "a" .int]) "x"
    astraySession.Attainable ∧ astraySession.services.Makes ForgeBehaviour.Oblivious ∧
      ∃ spec, (astraySession.compile List.range statement).result = .ok spec ∧
        ∀ rename, (((astraySession.afterCompile List.range statement).run
          [.register (.variable ⟨"x", .int, false⟩)]).compile List.range statement).result ≠
            .ok (spec.renamed rename) := by
  have attainable : astraySession.Attainable := .ask _ _ reachable_narrowSession.attainable
  have answered : astraySession.memory.getters.answer astraySession.services.registry
      (.map "S" [.scalar "a" .int]) "x" = .ok ⟨.mapEntry "x" none, .int, none⟩ := rfl
  have without : ¬ (EventType.map "S" [.scalar "a" .int]).Starts "x" := by
    unfold EventType.Starts
    decide
  refine ⟨attainable, Services.makes_oblivious_initial, ?_⟩
  exact @taken_over _ attainable _ ⟨"x", .int, false⟩ _ rfl answered without rfl

end CompilerSession

end EventQuery
