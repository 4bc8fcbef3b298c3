import EventQuery.Aggregation.Recording
import EventQuery.Proofs.History.Simulation
import EventQuery.Proofs.Sharing.Families

set_option autoImplicit false

/-! Compilation does not depend on what was compiled before. A session is a program with one
symbol context: it registers, asks for getters of registered types, and compiles, and whatever
it did before, a statement gives what it gives at the very start. -/

namespace EventQuery

structure CompilerSession where
  services : Services
  symbols : SymbolContext
  memory : CompilerMemory

inductive Services.Registers : Services → Services → Prop
  | types {services later : Services} {batch : List EventType} :
      services.registerTypes batch = .ok later → Registers services later
  | «variable» {services later : Services} {definition : VariableDefinition} :
      services.registerVariable definition = .ok later → Registers services later
  | table {services later : Services} {definition : TableDefinition} :
      services.registerTable definition = .ok later → Registers services later
  | declaration {services : Services} (declaration : Declaration) :
      Registers services (services.declareExpression declaration)
  | factory {services : Services} (name : String) (factory : AggregationFactory) :
      Registers services (services.addFactory name factory)
  | family {services later : Services} {family : FunctionFamily} :
      services.addFamily family = .ok later → Registers services later
  | attachText {services : Services} (attachText : Bool) :
      Registers services (services.setAttachText attachText)

namespace CompilerSession

def start : CompilerSession := ⟨.initial, .empty, .empty⟩

def compile (session : CompilerSession) (order : Nat → List Nat) (statement : Statement) :
    CompileOutcome :=
  session.services.compileWith order statement session.symbols session.memory

def afterCompile (session : CompilerSession) (order : Nat → List Nat) (statement : Statement) :
    CompilerSession :=
  { session with
    symbols := (session.compile order statement).symbols
    memory := (session.compile order statement).memory }

inductive Step : CompilerSession → CompilerSession → Prop
  | register {session : CompilerSession} {services : Services} :
      session.services.Registers services → Step session { session with services := services }
  | ask {session : CompilerSession} {type : EventType} (path : String) :
      session.services.registry.find? type.name = some type →
      Step session { session with memory := { session.memory with
        getters := (session.memory.getters.compile session.services.registry type path).2 } }
  | compile {session : CompilerSession} (order : Nat → List Nat) (statement : Statement) :
      Step session (session.afterCompile order statement)

inductive Reachable : CompilerSession → Prop
  | start : Reachable start
  | step {session later : CompilerSession} : Reachable session → Step session later →
      Reachable later

end CompilerSession

theorem Workshop.Settled.after {workshop past : Workshop} (settled : workshop.Settled)
    (before : past.Settled) : (workshop.after past).Settled := by
  intro identity maker callback member
  rcases List.mem_append.mp member with earlier | later
  · have existing := before identity maker callback earlier
    exact Nat.lt_of_lt_of_le existing (Nat.le_add_right _ _)
  · obtain ⟨entry, inside, same⟩ := List.mem_map.mp later
    cases entry with
    | creation factory family => cases same
    | message number _ _ =>
        cases same
        have existing := settled number maker callback inside
        exact Nat.add_lt_add_left existing _

theorem Past.Precedes.settled_later {past : Past} {fresh later : CompilerMemory}
    (precedes : past.Precedes fresh later) : later.workshop.Settled := by
  rw [precedes.workshop]
  exact precedes.settled.after past.settled

/-- A memory that later compilations may start from. -/
structure CompilerMemory.Sound (memory : CompilerMemory) (registry : Registry) : Prop where
  getters : memory.getters.Faithful registry
  workshop : memory.workshop.Settled

namespace CompilerMemory.Sound

variable {memory : CompilerMemory} {registry : Registry}

theorem empty (registry : Registry) : CompilerMemory.empty.Sound registry :=
  ⟨GetterCache.faithful_empty registry, Workshop.settled_empty⟩

def past (sound : memory.Sound registry) : Past :=
  ⟨registry, memory.workshop, sound.workshop, fun cache => cache.Faithful registry,
    GetterCache.indistinct_faithful registry⟩

theorem precedes (sound : memory.Sound registry) : sound.past.Precedes .empty memory where
  workshop := (Workshop.empty_after memory.workshop).symm
  settled := Workshop.settled_empty
  freshGetters := GetterCache.faithful_empty registry
  laterGetters := sound.getters

theorem of_precedes {past : Past} {fresh later : CompilerMemory}
    (faithful : ∀ cache, past.caches cache → cache.Faithful past.registry)
    (precedes : past.Precedes fresh later) : later.Sound past.registry :=
  ⟨faithful _ precedes.laterGetters, precedes.settled_later⟩

end CompilerMemory.Sound

namespace Services

variable {services : Services} {memory : CompilerMemory}

theorem agrees_of_sound (sound : memory.Sound services.registry) (fuel : Nat)
    (order : Nat → List Nat) (isSubquery : Bool) (statement : Statement) :
    sound.past.Agrees .empty
      (compileStatement (resolve .spent fuel) services order isSubquery statement .empty .empty)
      (compileStatement (resolve .spent fuel) services order isSubquery statement .empty memory) :=
  (mirrored_resolve sound.past fuel).compileStatement rfl order isSubquery statement sound.precedes

theorem compileWithin_of_precedes {past : Past} {fresh later : CompilerMemory}
    (registry : services.registry = past.registry) (precedes : past.Precedes fresh later)
    (fuel : Nat) (order : Nat → List Nat) (statement : Statement) :
    (services.compileWithin fuel order statement .empty later).result =
        (services.compileWithin fuel order statement .empty fresh).result.map
          (StatementSpec.renamed past.renumber) ∧
      (services.compileWithin fuel order statement .empty later).symbols = .empty ∧
      past.Precedes (services.compileWithin fuel order statement .empty fresh).memory
        (services.compileWithin fuel order statement .empty later).memory := by
  have agrees := (mirrored_resolve past fuel).compileStatement registry order false statement
    precedes
  unfold compileWithin compileBy
  cases compiled : compileStatement (resolve .spent fuel) services order false statement .empty
      fresh with
  | mk result freshMemory =>
      cases compiledLater : compileStatement (resolve .spent fuel) services order false statement
          .empty later with
      | mk laterResult laterMemory =>
          rw [compiled, compiledLater] at agrees
          obtain ⟨same, stillPrecedes, _⟩ := agrees
          cases result with
          | ok pair =>
              obtain ⟨spec, symbols⟩ := pair
              cases same
              refine ⟨?_, rfl, stillPrecedes⟩
              exact congrArg Except.ok (SymbolContext.foldInto_renamed _ symbols spec)
          | error fault =>
              cases same
              cases fault with
              | refused failure => exact ⟨rfl, rfl, stillPrecedes⟩
              | unfinished => exact ⟨rfl, rfl, stillPrecedes⟩

theorem compile_of_precedes {past : Past} {fresh later : CompilerMemory}
    (registry : services.registry = past.registry) (precedes : past.Precedes fresh later)
    (order : Nat → List Nat) (statement : Statement) :
    (services.compile order statement later).result =
        (services.compile order statement fresh).result.map
          (StatementSpec.renamed past.renumber) ∧
      (services.compile order statement later).symbols = .empty ∧
      past.Precedes (services.compile order statement fresh).memory
        (services.compile order statement later).memory := by
  unfold compile
  rw [compileWith_eq_compileWithin, compileWith_eq_compileWithin]
  exact compileWithin_of_precedes registry precedes _ order statement

theorem compileWith_of_sound (sound : memory.Sound services.registry) (order : Nat → List Nat)
    (statement : Statement) :
    (services.compileWith order statement .empty memory).result =
        (services.compile order statement .empty).result.map
          (StatementSpec.renamed memory.workshop.renumber) ∧
      (services.compileWith order statement .empty memory).symbols = .empty ∧
      (services.compileWith order statement .empty memory).memory.Sound services.registry := by
  have agrees : _ ∧ _ ∧ sound.past.Precedes _ _ :=
    compile_of_precedes rfl sound.precedes order statement
  exact ⟨agrees.1, agrees.2.1, .of_precedes (fun _ => id) agrees.2.2⟩

theorem symbols_of_failed_compileWith {order : Nat → List Nat} {statement : Statement}
    {symbols : SymbolContext} {failure : CompileFailure}
    (failed : (services.compileWith order statement symbols memory).result = .error failure) :
    (services.compileWith order statement symbols memory).symbols = symbols := by
  rw [compileWith_eq_compileWithin] at failed ⊢
  unfold compileWithin compileBy at failed ⊢
  split at failed
  · cases failed
  · rfl
  · rfl

theorem Registers.grows {later : Services} (registers : services.Registers later) :
    services.registry.Grows later.registry := by
  cases registers with
  | types accepted =>
      obtain ⟨registry, registered, rfl⟩ := Checked.map_eq_ok_iff.mp accepted
      exact Registry.grows_of_registerAll registered
  | «variable» accepted =>
      unfold registerVariable at accepted
      split at accepted
      · cases accepted
      · cases accepted
        exact .refl _
  | table accepted =>
      unfold registerTable at accepted
      split at accepted
      · cases accepted
      · split at accepted
        · cases accepted
        · cases accepted
          exact .refl _
  | declaration declaration => exact .refl _
  | factory name factory => exact .refl _
  | family accepted =>
      obtain ⟨_, mapped, _⟩ := mapping_of_addFamily accepted
      rw [mapped]
      exact .refl _
  | attachText attachText => exact .refl _

end Services

/-! ### Whole sessions -/

namespace CompilerSession

structure Sound (session : CompilerSession) : Prop where
  symbols : session.symbols = .empty
  memory : session.memory.Sound session.services.registry

variable {session later : CompilerSession}

theorem Sound.step (sound : session.Sound) (step : Step session later) : later.Sound := by
  cases step with
  | register registers =>
      exact ⟨sound.symbols, sound.memory.getters.grows registers.grows, sound.memory.workshop⟩
  | ask path registered =>
      exact ⟨sound.symbols, sound.memory.getters.compile registered path, sound.memory.workshop⟩
  | compile order statement =>
      have ended := Services.compileWith_of_sound sound.memory order statement
      unfold afterCompile CompilerSession.compile
      rw [sound.symbols]
      exact ⟨ended.2.1, ended.2.2⟩

theorem Reachable.sound (reachable : session.Reachable) : session.Sound := by
  induction reachable with
  | start => exact ⟨rfl, .empty _⟩
  | step _ step ih => exact ih.step step

/-- Whatever a session did before, a compilation in it gives the failure or the spec that the
statement gives in a fresh context with an empty cache, up to the numbers of forges; and a
compilation that fails leaves the symbols of its caller as they were, whatever they are. -/
theorem Reachable.compile_independent (reachable : session.Reachable) (order : Nat → List Nat)
    (statement : Statement) :
    (∃ rename, Function.Injective rename ∧
      (session.compile order statement).result =
        (session.services.compile order statement .empty).result.map
          (StatementSpec.renamed rename)) ∧
    ∀ symbols memory failure,
      (session.services.compileWith order statement symbols memory).result = .error failure →
        (session.services.compileWith order statement symbols memory).symbols = symbols := by
  have sound := reachable.sound
  constructor
  · refine ⟨session.memory.workshop.renumber, ?_, ?_⟩
    · intro first second same
      exact Nat.add_left_cancel same
    · unfold CompilerSession.compile
      rw [sound.symbols]
      exact (Services.compileWith_of_sound sound.memory order statement).1
  · intro symbols memory failure failed
    exact Services.symbols_of_failed_compileWith failed

def tradeType : EventType := .map "Trade" [⟨"price", .double, none⟩]

/-- Trades, a variable, a table, and a function that counts, registered one after the other; then
the getter of the price of a trade was asked for. -/
def trading : CompilerSession :=
  let declared : Services :=
    { Services.initial with
      registry := ⟨[tradeType]⟩
      variableDefinitions := [⟨"limit", .double, false⟩]
      tables := [⟨"T", [⟨"k", .double⟩], ["k"]⟩] }
  let services := (declared.addFactory "rec" Recording.factory).afterFamily ⟨["count"], "rec", []⟩
  let getters := (CompilerMemory.empty.getters.compile services.registry tradeType "price").2
  ⟨services, .empty, { CompilerMemory.empty with getters := getters }⟩

theorem reachable_trading : trading.Reachable := by
  have types : Reachable ⟨_, .empty, .empty⟩ :=
    .step .start (.register (@Services.Registers.types _ _ [tradeType] rfl))
  have limit : Reachable ⟨_, .empty, .empty⟩ :=
    .step types (.register (@Services.Registers.variable _ _ ⟨"limit", .double, false⟩ rfl))
  have table : Reachable ⟨_, .empty, .empty⟩ :=
    .step limit (.register (@Services.Registers.table _ _ ⟨"T", [⟨"k", .double⟩], ["k"]⟩ rfl))
  have factory : Reachable ⟨_, .empty, .empty⟩ :=
    .step table (.register (.factory "rec" Recording.factory))
  have family : Reachable ⟨trading.services, .empty, .empty⟩ :=
    .step factory (.register (@Services.Registers.family _ _ ⟨["count"], "rec", []⟩ rfl))
  exact .step family (.ask "price" rfl)

def summary : Statement :=
  let price : Expression := .property ⟨none, none, "price"⟩
  let columns : List Expression :=
    [.call ⟨none, "count", false, [price]⟩, .call ⟨none, "last", false, [price]⟩]
  { Statement.selecting "summary" price with
    streams := [⟨none, "Trade", none⟩]
    select := columns.map (fun column => ⟨column, none⟩) }

def report : Statement :=
  let limit : Expression := .property ⟨none, none, "limit"⟩
  let columns : List Expression :=
    [limit, .table ⟨0, none, "T", [limit], none⟩, .substitution ⟨none, none, some .int⟩]
  { summary with
    name := "report"
    select := summary.select ++ columns.map (fun column => ⟨column, none⟩) }

def hasty : Statement :=
  { report with select := report.select ++ [⟨.call ⟨none, "missing", false, []⟩, none⟩] }

def undefinedFunction : CompileFailure :=
  .refused ⟨⟨.unknownSymbol .function "missing", none⟩, "report"⟩

/-- The session after a summary and a hasty report, which is refused when all that a report records
is recorded and the forges are there. -/
def experienced : CompilerSession :=
  (trading.afterCompile List.range summary).afterCompile List.range hasty

def held : SymbolContext :=
  { SymbolContext.empty with
    variableNames := ["limit"]
    substitutions := [⟨none, some "x", none⟩] }

theorem compile_after_refusal :
    (trading.compile List.range report).result.toOption.map (fun spec =>
        (spec.variableNames, spec.tables.length, spec.substitutions.length, spec.forges.length)) =
      some (["limit"], 1, 1, 2) ∧
    (trading.compile List.range summary).result.isOk = true ∧
    ((trading.afterCompile List.range summary).compile List.range hasty).result =
      .error undefinedFunction ∧
    experienced.Reachable ∧ experienced.memory.workshop.nextIdentity = 4 ∧
    (∃ spec rename, (experienced.services.compile List.range summary .empty).result = .ok spec ∧
      Function.Injective rename ∧
      (experienced.compile List.range summary).result = .ok (spec.renamed rename) ∧
      spec.forges.map (fun entry => entry.2.identity) = [0, 1] ∧
      (spec.renamed rename).forges.map (fun entry => entry.2.identity) = [4, 5]) ∧
    (experienced.services.compileWith List.range hasty held experienced.memory).result =
      .error undefinedFunction ∧
    (experienced.services.compileWith List.range hasty held experienced.memory).symbols =
      held := by
  have reachable : experienced.Reachable :=
    .step (.step reachable_trading (.compile _ _)) (.compile _ _)
  obtain ⟨⟨rename, injective, renamed⟩, _⟩ := reachable.compile_independent List.range summary
  obtain ⟨_, kept⟩ := reachable.compile_independent List.range hasty
  have refused : ((trading.afterCompile List.range summary).compile List.range hasty).result.map
      (fun _ => ()) = .error undefinedFunction := by
    decide +kernel
  have again : (experienced.services.compileWith List.range hasty held
      experienced.memory).result.map (fun _ => ()) = .error undefinedFunction := by
    decide +kernel
  have failed := Checked.map_eq_error_iff.mp again
  refine ⟨by decide +kernel, by decide +kernel, Checked.map_eq_error_iff.mp refused, reachable,
    by decide +kernel, ?_, failed, kept held experienced.memory _ failed⟩
  have fresh : (experienced.services.compile List.range summary .empty).result.toOption.map
      (fun spec => spec.forges.map (fun entry => entry.2.identity)) = some [0, 1] := by
    decide +kernel
  have later : (experienced.compile List.range summary).result.toOption.map
      (fun spec => spec.forges.map (fun entry => entry.2.identity)) = some [4, 5] := by
    decide +kernel
  cases compiled : (experienced.services.compile List.range summary .empty).result with
  | error failure =>
      rw [compiled] at fresh
      cases fresh
  | ok spec =>
      rw [compiled] at fresh renamed
      rw [renamed] at later
      exact ⟨spec, rename, rfl, injective, renamed, Option.some.inj fresh, Option.some.inj later⟩

end CompilerSession

end EventQuery
