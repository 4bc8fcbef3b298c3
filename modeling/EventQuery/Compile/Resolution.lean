import EventQuery.Aggregation.CallSites
import EventQuery.Getter.Cache
import EventQuery.Resolved.Typing
import EventQuery.Services
import EventQuery.Statement.Spec

set_option autoImplicit false

/-! What the resolution of a statement reads and writes. The frame is fixed for a statement, the
scope for a place in it, and the progress is what has been gathered so far. A resolution that
is refused keeps its progress, so that its caller decides what of it to keep. -/

namespace EventQuery

inductive ParameterStyle where
  | named
  | unnamed
  deriving DecidableEq, Repr

/-- What outlives a compilation, successful or not: the getters that were built and what was
asked of factories and forges. -/
structure CompilerMemory where
  getters : GetterCache
  workshop : Workshop

def CompilerMemory.empty : CompilerMemory := ⟨.empty, .empty⟩

/-- Why a resolution ends without a result: the statement is refused, or the fuel is spent. -/
inductive CompileFault where
  | refused (failure : LocatedError)
  | unfinished

/-- What is fixed for a statement. The order says how its aggregation calls are visited, given
their number. -/
structure Frame where
  services : Services
  order : Nat → List Nat
  statement : String
  isSubquery : Bool
  streams : List StreamBinding

/-- What is fixed for a place in a statement: the values of the parameters of the declaration
whose body it is in, the declarations that are being expanded around it, its clause, and
whether it is within a parameter of an aggregation call. -/
structure Scope where
  bindings : List (String × Resolved)
  expanding : List String
  clause : Clause
  inAggregation : Bool

def Scope.ofClause (clause : Clause) : Scope := ⟨[], [], clause, false⟩

def Scope.aggregated (scope : Scope) : Scope :=
  { scope with inAggregation := true }

/-- The scope of the body of a declaration whose parameters stand for some arguments; of two
parameters of one name the later counts. -/
def Scope.entering (scope : Scope) (name : String) (declaration : Declaration)
    (arguments : List Resolved) : Scope :=
  { scope with
    bindings := (declaration.parameters.zip arguments).reverse
    expanding := name :: scope.expanding }

structure Progress where
  symbols : SymbolContext
  calls : CallSites
  subqueries : List StatementSpec
  style : Option ParameterStyle
  memory : CompilerMemory

/-- The progress of a statement after one of its subqueries was compiled. Of the symbols of the
subquery the variables and tables are added; the rest is kept in its spec. -/
def Progress.afterSubquery (progress : Progress) (spec : StatementSpec) (symbols : SymbolContext)
    (memory : CompilerMemory) : Progress :=
  { progress with
    symbols := progress.symbols.merge symbols
    subqueries := progress.subqueries ++ [symbols.foldInto spec]
    memory := memory }

abbrev Resolution (α : Type) := ExceptT CompileFault (StateM Progress) α

abbrev Resolver := Frame → Scope → Expression → Resolution Resolved

def Resolver.spent : Resolver :=
  fun _ _ _ => throw .unfinished

namespace Resolution

def refuse {α : Type} (error : ValidationError) (position : Option Position) : Resolution α :=
  throw (.refused ⟨error, position⟩)

def ofChecked {α : Type} (result : Except LocatedError α) : Resolution α :=
  match result with
  | .ok value => return value
  | .error failure => throw (.refused failure)

def modifySymbols (change : SymbolContext → SymbolContext) : Resolution Unit :=
  modify (fun progress => { progress with symbols := change progress.symbols })

end Resolution

namespace Frame

def indexedStreams (frame : Frame) : List (StreamBinding × Nat) :=
  frame.streams.zipIdx

def streamNamed? (frame : Frame) (name : String) : Option (StreamBinding × Nat) :=
  frame.indexedStreams.find? (fun stream => stream.1.name = name)

def streamsWith (frame : Frame) (property : String) : List (StreamBinding × Nat) :=
  frame.indexedStreams.filter (fun stream => (stream.1.type.property? property).isSome)

/-- The stream and the path within it that a path denotes whose first segment names a
stream. -/
def qualified? (frame : Frame) (path : String) : Option ((StreamBinding × Nat) × String) :=
  match Text.segments path with
  | name :: next :: rest =>
      (frame.streamNamed? name).map (fun stream => (stream, Text.dotted (next :: rest)))
  | _ => none

end Frame

end EventQuery
