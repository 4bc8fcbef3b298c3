import EventQuery.Compile.Resolve
import EventQuery.Expression.Size

set_option autoImplicit false

/-! Compilation of statements. A statement is compiled with a symbol context that its caller
provides: a successful compilation moves the symbols into the spec and leaves the context
empty, a failing one leaves it as it was. -/

namespace EventQuery

/-- Why a statement has no spec. A statement whose declarations lead back to themselves through
a subquery is never finished. -/
inductive CompileFailure where
  | refused (failure : StatementError)
  | unfinished
  deriving DecidableEq, Repr

structure CompileOutcome where
  result : Except CompileFailure StatementSpec
  symbols : SymbolContext
  memory : CompilerMemory

namespace Services

def compileBy (services : Services) (resolver : Resolver) (order : Nat → List Nat)
    (statement : Statement) (symbols : SymbolContext) (memory : CompilerMemory) :
    CompileOutcome :=
  match compileStatement resolver services order false statement symbols memory with
  | (.ok (spec, gathered), memory) => ⟨.ok (gathered.foldInto spec), .empty, memory⟩
  | (.error (.refused failure), memory) =>
      ⟨.error (.refused ⟨failure, statement.name⟩), symbols, memory⟩
  | (.error .unfinished, memory) => ⟨.error .unfinished, symbols, memory⟩

def compileWithin (services : Services) (fuel : Nat) (order : Nat → List Nat)
    (statement : Statement) (symbols : SymbolContext) (memory : CompilerMemory) :
    CompileOutcome :=
  services.compileBy (resolve .spent fuel) order statement symbols memory

/-- Fuel for a statement. Within one statement or subquery no declaration is expanded inside
itself, so a path through it is no longer than all text that it can reach; and a path that
enters the same subquery twice never ends. -/
def fuelFor (services : Services) (statement : Statement) (symbols : SymbolContext) : Nat :=
  let reachable := statement.size +
    sizeOfDeclarations (services.declarations.map Prod.snd) +
    sizeOfDeclarations (symbols.declarations.map Prod.snd)
  (reachable + 2) * (reachable + 2)

/-- Fuel that every statement is given. Text that is shared many times over is large beyond
measure although it is not deep, so nothing is measured before this much is spent. -/
def advance : Nat := 65536

def compileWith (services : Services) (order : Nat → List Nat) (statement : Statement)
    (symbols : SymbolContext) (memory : CompilerMemory) : CompileOutcome :=
  let fuel := Thunk.mk (fun _ => services.fuelFor statement symbols)
  let beyond : Resolver := fun frame scope expression =>
    resolve .spent fuel.get frame scope expression
  services.compileBy (resolve beyond advance) order statement symbols memory

theorem compileWith_eq_compileWithin (services : Services) (order : Nat → List Nat)
    (statement : Statement) (symbols : SymbolContext) (memory : CompilerMemory) :
    services.compileWith order statement symbols memory =
      services.compileWithin (services.fuelFor statement symbols + advance) order statement
        symbols memory := by
  unfold compileWithin
  rw [← resolve_resolve]
  rfl

def compile (services : Services) (order : Nat → List Nat) (statement : Statement)
    (memory : CompilerMemory) : CompileOutcome :=
  services.compileWith order statement .empty memory

end Services

end EventQuery
