import EventQuery.Aggregation.Recording
import EventQuery.Proofs.Order.Refusals
import EventQuery.Proofs.Resolution.Conclusion

set_option autoImplicit false

/-! What a statement is not refused for. Only a call of a declared expression is refused because
the expression refers to itself: no other check of the compiler has this failure, and no factory
or forge is to answer with it. -/

namespace EventQuery

open Resolution

/-- The failure is another one than that a declared expression refers to itself. -/
def ValidationError.Innocent : ValidationError → Prop
  | notAllowed (.selfReference _) => False
  | _ => True

def LocatedError.Innocent (failure : LocatedError) : Prop :=
  failure.error.Innocent

open Checked (FailsOnly)

namespace Resolved

variable (handlers : List Handler)

theorem innocent_checkOperand (operator : String) (operand : Resolved) :
    FailsOnly LocatedError.Innocent (checkOperand operator operand) := by
  unfold checkOperand
  split
  · exact .ok _
  · exact .error trivial

mutual

theorem innocent_typed :
    (tree : Resolved) → FailsOnly LocatedError.Innocent (typed handlers tree)
  | constant _ => .ok _
  | property _ _ _ => .ok _
  | wildcard _ _ => .ok _
  | .variable _ _ => .ok _
  | substitution _ _ => .ok _
  | prior _ _ _ => .ok _
  | subquery _ _ => .ok _
  | aggregation site _ _ => by
      unfold typed
      split <;> exact .ok _
  | table _ keys _ => (innocent_typedAll keys).bind (fun _ => .ok _)
  | declared _ body => (innocent_typed body).bind (fun _ => .ok _)
  | script _ arguments => (innocent_typedAll arguments).bind (fun _ => .ok _)
  | math _ left right _ _ => by
      refine (innocent_typed left).bind (fun _ => (innocent_typed right).bind (fun _ => ?_))
      split
      · exact .ok _
      · exact .error trivial
  | compare _ left right _ => by
      refine (innocent_typed left).bind (fun _ => (innocent_typed right).bind (fun _ => ?_))
      split
      · exact .ok _
      · exact .error trivial
  | and left right =>
      (innocent_typed left).bind (fun _ => (innocent_checkOperand _ _).bind (fun _ =>
        (innocent_typed right).bind (fun _ => (innocent_checkOperand _ _).bind (fun _ => .ok _))))
  | or left right =>
      (innocent_typed left).bind (fun _ => (innocent_checkOperand _ _).bind (fun _ =>
        (innocent_typed right).bind (fun _ => (innocent_checkOperand _ _).bind (fun _ => .ok _))))
  | not inner =>
      (innocent_typed inner).bind (fun _ => (innocent_checkOperand _ _).bind (fun _ => .ok _))

theorem innocent_typedAll :
    (trees : List Resolved) → FailsOnly LocatedError.Innocent (typedAll handlers trees)
  | [] => .ok _
  | tree :: trees => (innocent_typed tree).bind (fun _ =>
      (innocent_typedAll trees).bind (fun _ => .ok _))

end

end Resolved

theorem innocent_typedColumns (handlers : List Handler) (columns : List SelectColumn) :
    FailsOnly LocatedError.Innocent (typedColumns handlers columns) := by
  induction columns with
  | nil => exact .ok _
  | cons column columns ih =>
      exact (column.expression.innocent_typed handlers).bind (fun _ => ih.bind (fun _ => .ok _))

theorem innocent_typedCondition (handlers : List Handler) (clause : Clause)
    (condition? : Option Resolved) :
    FailsOnly LocatedError.Innocent (typedCondition handlers clause condition?) := by
  cases condition? with
  | none => exact .ok _
  | some condition =>
      refine (condition.innocent_typed handlers).bind (fun _ => ?_)
      split
      · exact .ok _
      · exact .error trivial

theorem ResolvedClauses.innocent_typed (clauses : ResolvedClauses) (handlers : List Handler) :
    FailsOnly LocatedError.Innocent (clauses.typed handlers) :=
  (innocent_typedColumns handlers clauses.select).bind (fun _ =>
    (Resolved.innocent_typedAll handlers clauses.groupBy).bind (fun _ =>
      (innocent_typedCondition handlers .filter clauses.filter).bind (fun _ =>
        (innocent_typedCondition handlers .having clauses.having).bind (fun _ => .ok _))))

namespace Frame

theorem innocent_checkedKey (node : TableAccess) (table : TableDefinition) (column : String)
    (key : Resolved) : FailsOnly LocatedError.Innocent (checkedKey node table column key) := by
  refine (key.innocent_typed []).bind (fun _ => ?_)
  split
  · exact .ok _
  · exact .error trivial

theorem innocent_accessedType (node : TableAccess) (table : TableDefinition) :
    FailsOnly LocatedError.Innocent (accessedType node table) := by
  unfold accessedType
  split
  · exact .ok _
  · split
    · exact .ok _
    · exact .error trivial

theorem innocent_aggregationParameter (tree : Resolved) :
    FailsOnly LocatedError.Innocent (aggregationParameter tree) := by
  unfold aggregationParameter
  split
  · exact .ok _
  · exact .ok _
  · exact (tree.innocent_typed []).map _

end Frame

theorem innocent_bindStreams {registry : Registry} (bound : List StreamBinding)
    (sources : List StreamSource) :
    FailsOnly LocatedError.Innocent (bindStreams registry bound sources) := by
  induction sources generalizing bound with
  | nil => exact .ok _
  | cons source sources ih =>
      unfold bindStreams
      unfold Registry.resolve
      cases registry.find? source.eventType with
      | none => exact .error trivial
      | some type =>
          dsimp only
          split
          · exact .error trivial
          · exact ih _

namespace Getter

variable (registry : Registry) (type : EventType)

theorem innocent_fragmentType (property : PropertyDescriptor) :
    FailsOnly ValidationError.Innocent (fragmentType registry type property) := by
  unfold fragmentType
  split
  · exact .ok _
  · split
    · exact .ok _
    · exact .error trivial

theorem innocent_checkFragment (property : String) (fragment : Option EventType) :
    FailsOnly ValidationError.Innocent (checkFragment type property fragment) := by
  unfold checkFragment
  split
  · split
    · exact .ok _
    · exact .error trivial
  · split
    · exact .ok _
    · exact .error trivial
  · exact .ok _

theorem innocent_ofProperty (name : String) :
    FailsOnly ValidationError.Innocent (ofProperty registry type name) := by
  unfold ofProperty
  split
  · exact .error trivial
  · rename_i property _
    refine (innocent_fragmentType registry type property).bind (fun _ =>
      (innocent_checkFragment type name _).bind (fun _ => ?_))
    split
    · exact .ok _
    · exact .error trivial

theorem innocent_ofSegments (names : List String) :
    FailsOnly ValidationError.Innocent (ofSegments registry type names) := by
  induction names generalizing type with
  | nil => exact .error trivial
  | cons head rest ih =>
      cases rest with
      | nil =>
          unfold ofSegments
          split
          · exact .error trivial
          · exact innocent_ofProperty registry type head
      | cons next rest =>
          unfold ofSegments
          split
          · exact .error trivial
          · refine (innocent_ofProperty registry type head).bind (fun _ => ?_)
            split
            · exact .error trivial
            · exact (ih _).bind (fun _ => .ok _)

end Getter

theorem GetterCache.innocent_compile (cache : GetterCache) (registry : Registry) (type : EventType)
    (path : String) : FailsOnly ValidationError.Innocent (cache.compile registry type path).1 := by
  have built := Getter.innocent_ofSegments registry type (Text.segments path)
  unfold compile
  split
  · exact .ok _
  · split
    · exact .ok _
    · rename_i failure failed
      exact .error (built failure failed)

/-! ### Resolutions -/

namespace Resolution

variable {α β : Type} {before : Progress}

/-- If the resolution is refused, then not for a self-reference. -/
def Spares (action : Resolution α) (before : Progress) : Prop :=
  ∀ failure, action.Refused before failure → failure.Innocent

namespace Spares

theorem pure (value : α) : Spares (pure value) before := by
  intro failure refused
  cases refused

theorem unfinished : Spares (throw .unfinished : Resolution α) before := by
  intro failure refused
  cases refused

theorem refuse {error : ValidationError} {position : Option Position} (innocent : error.Innocent) :
    Spares (refuse error position : Resolution α) before := by
  intro failure refused
  cases refused
  exact innocent

theorem ofChecked {check : Except LocatedError α}
    (innocent : FailsOnly LocatedError.Innocent check) : Spares (ofChecked check) before := by
  intro failure refused
  cases check with
  | ok value => cases refused
  | error found =>
      cases refused
      exact innocent failure rfl

theorem bind_of_yields {action : Resolution α} {next : α → Resolution β}
    (first : Spares action before)
    (rest : ∀ value between, Yields action before value between → Spares (next value) between) :
    Spares (action >>= next) before := by
  intro failure refused
  unfold Refused at refused
  rw [outcome_bind] at refused
  cases run : action.outcome before with
  | mk result between =>
      rw [run] at refused
      cases result with
      | ok value => exact rest value between run failure refused
      | error fault =>
          cases refused
          have here : action.Refused before failure := by
            unfold Refused
            rw [run]
          exact first failure here

theorem bind {action : Resolution α} {next : α → Resolution β} (first : Spares action before)
    (rest : ∀ value between, Spares (next value) between) : Spares (action >>= next) before :=
  first.bind_of_yields (fun value between _ => rest value between)

theorem get_bind {next : Progress → Resolution β} (rest : Spares (next before) before) :
    Spares (get >>= next) before :=
  rest

theorem set_bind {progress : Progress} {next : PUnit → Resolution β}
    (rest : Spares (next ()) progress) : Spares (set progress >>= next) before :=
  rest

theorem modifySymbols_bind {change : SymbolContext → SymbolContext} {next : Unit → Resolution β}
    (rest : ∀ between, Spares (next ()) between) :
    Spares (modifySymbols change >>= next) before :=
  rest _

theorem mapM_of_yields {action : α → Resolution β} {items : List α}
    (each : ∀ done item rest results between, items = done ++ item :: rest →
      Yields (done.mapM action) before results between → Spares (action item) between) :
    Spares (items.mapM action) before := by
  induction items generalizing before with
  | nil => exact .pure []
  | cons item items ih =>
      rw [List.mapM_cons]
      have first := each [] item items [] before rfl (yields_mapM_nil_iff.mpr ⟨rfl, rfl⟩)
      refine first.bind_of_yields ?_
      intro first between run
      refine (ih ?_).bind (fun rest _ => .pure (first :: rest))
      intro done other rest results further split finished
      refine each (item :: done) other rest (first :: results) further ?_ ?_
      · rw [split, List.cons_append]
      · exact yields_mapM_cons_iff.mpr ⟨first, between, results, run, finished, rfl⟩

theorem of_endsLike {action : Resolution α} {other : Resolution β} (alike : EndsLike action other)
    (spares : Spares other before) : Spares action before :=
  fun failure refused => spares failure (((alike before).2 _).mp refused)

end Spares

end Resolution

namespace Frame

variable {frame : Frame} {before : Progress}

theorem spares_resolveStreamProperty (stream : StreamBinding × Nat) (path : String)
    (position : Option Position) :
    Spares (frame.resolveStreamProperty stream path position) before := by
  have innocent := before.memory.getters.innocent_compile frame.services.registry stream.1.type path
  unfold resolveStreamProperty
  apply Spares.get_bind
  dsimp only
  apply Spares.set_bind
  split
  · exact .pure _
  · rename_i failure failed
    exact .refuse (innocent failure failed)

theorem spares_resolvePath (scope : Scope) (path : String) (position : Option Position) :
    Spares (frame.resolvePath scope path position) before := by
  unfold resolvePath
  split
  · exact .pure _
  · split
    · exact spares_resolveStreamProperty _ _ _
    · exact .refuse trivial
    · split
      · exact spares_resolveStreamProperty _ _ _
      · split
        · exact .modifySymbols_bind (fun _ => .pure _)
        · split
          · exact spares_resolveStreamProperty _ _ _
          · exact .refuse trivial

theorem spares_resolveProperty (scope : Scope) (node : PropertyNode) :
    Spares (frame.resolveProperty scope node) before := by
  unfold resolveProperty
  split
  · split
    · exact spares_resolveStreamProperty _ _ _
    · exact .refuse trivial
  · exact spares_resolvePath _ _ _

theorem spares_resolvePrior (scope : Scope) (position : Option Position) (index : Nat)
    (node : PropertyNode) : Spares (frame.resolvePrior scope position index node) before := by
  unfold resolvePrior
  refine (spares_resolveProperty scope node).bind (fun _ _ => ?_)
  split
  · exact .modifySymbols_bind (fun _ => .pure _)
  · exact .refuse trivial

theorem spares_resolveWildcard (scope : Scope) (position : Option Position)
    (stream : Option String) : Spares (frame.resolveWildcard scope position stream) before := by
  unfold resolveWildcard
  split
  · split
    · split
      · exact .pure _
      · exact .refuse trivial
    · split
      · exact .pure _
      · exact .refuse trivial
  · exact .refuse trivial

theorem spares_resolveSubstitution (node : SubstitutionNode) :
    Spares (frame.resolveSubstitution node) before := by
  unfold resolveSubstitution
  split
  · exact .refuse trivial
  · generalize (if node.name.isSome then ParameterStyle.named else .unnamed) = style
    apply Spares.get_bind
    dsimp only
    split
    · exact .refuse trivial
    · exact .set_bind (.pure _)

end Frame

/-! ### Factories and forges -/

/-- The forge leaves it to the compiler to find declared expressions that refer to themselves. -/
def ForgeBehaviour.Withholds (behaviour : ForgeBehaviour) : Prop :=
  ∀ history validation,
    FailsOnly ValidationError.Innocent (behaviour.validate history validation)

structure Services.Withholds (services : Services) : Prop where
  factories : ∀ entry ∈ services.factories, ∀ family,
    FailsOnly ValidationError.Innocent (entry.2.create family)
  forges : services.Makes ForgeBehaviour.Withholds

theorem Collect.innocent_validate (validation : CallValidation) :
    FailsOnly ValidationError.Innocent (Collect.validate validation) := by
  unfold Collect.validate
  split
  · exact .error trivial
  · split
    · dsimp only
      split
      · exact .error trivial
      · exact .ok _
      · exact .ok _
      · exact .error trivial
    · exact .error trivial

theorem Recording.innocent_validate (validation : CallValidation) :
    FailsOnly ValidationError.Innocent (Recording.validate validation) := by
  have shape : FailsOnly ValidationError.Innocent (Recording.shape validation) := by
    unfold Recording.shape
    dsimp only
    split
    · exact .ok _
    · exact .ok _
    · exact .error trivial
    · exact .error trivial
    · exact .ok _
    · exact .ok _
  unfold Recording.validate
  split
  · exact .error trivial
  · exact shape.map _

theorem Services.withholds_of_known {services : Services}
    (known : ∀ entry ∈ services.factories,
      entry.2 = Collect.factory ∨ entry.2 = Recording.factory) : services.Withholds where
  factories := by
    intro entry member family
    rcases known entry member with same | same
    · rw [same]
      exact .ok _
    · rw [same]
      unfold Recording.factory
      dsimp only
      split
      · exact .error trivial
      · exact .ok _
  forges := by
    intro entry member family behaviour created
    rcases known entry member with same | same
    · rw [same] at created
      cases created
      exact fun _ => Collect.innocent_validate
    · rw [same] at created
      unfold Recording.factory at created
      dsimp only at created
      split at created
      · cases created
      · cases created
        exact fun _ => Recording.innocent_validate

theorem Services.Withholds.createForge {services : Services} (withholds : services.Withholds)
    (family : FunctionFamily) (workshop : Workshop) :
    FailsOnly ValidationError.Innocent (services.createForge family workshop).1 := by
  unfold Services.createForge
  split
  · rename_i factory known
    have innocent := withholds.factories _ (Entries.mem_of_lookup known) family
    unfold Workshop.create
    dsimp only
    split
    · exact .ok _
    · rename_i failure failed
      exact .error (innocent failure failed)
  · exact .error trivial

theorem Frame.spares_resolveForge {frame : Frame} {before : Progress}
    (withholds : frame.services.Withholds) (family : FunctionFamily)
    (position : Option Position) : Spares (frame.resolveForge family position) before := by
  have innocent := withholds.createForge family before.memory.workshop
  unfold resolveForge
  apply Spares.get_bind
  unfold SymbolContext.resolveForge
  cases before.symbols.forge? (.ofFamily family) with
  | some forge => exact .set_bind (.pure _)
  | none =>
      dsimp only
      cases created : frame.services.createForge family before.memory.workshop with
      | mk result workshop =>
          rw [created] at innocent
          cases result with
          | ok forge => exact .set_bind (.pure _)
          | error failure => exact .set_bind (.refuse (innocent failure rfl))

namespace CallSites

theorem innocent_add (calls : CallSites) (site : CallSite) :
    FailsOnly ValidationError.Innocent (calls.add site) := by
  unfold add
  split
  · exact .ok _
  · exact .error trivial

theorem innocent_checkOrder (calls : CallSites) (order : List Nat) :
    FailsOnly ValidationError.Innocent (calls.checkOrder order) := by
  unfold checkOrder
  dsimp only
  split
  · exact .ok _
  · exact .error trivial

theorem innocent_declare (calls : CallSites) (workshop : Workshop) (statement : String)
    (order : List Nat) :
    FailsOnly ValidationError.Innocent (calls.declare workshop statement order) := by
  unfold declare
  split
  · split
    · exact .ok _
    · rename_i failure failed
      exact .error (calls.innocent_checkOrder order failure failed)
  · exact .error trivial

section

variable {sites : List CallSite} (withhold : ∀ site ∈ sites, site.forge.behaviour.Withholds)
  (statement : String) (streams : List EventType) (registry : Registry)

include withhold

theorem innocent_validateVisits (order : List Nat) (workshop : Workshop) :
    FailsOnly (fun failure => failure.error.Innocent)
      (validateVisits sites statement streams registry order workshop).1 := by
  induction order generalizing workshop with
  | nil => exact .ok _
  | cons index rest ih =>
      unfold validateVisits
      cases found : sites[index]? with
      | none => exact ih workshop
      | some site =>
          have innocent := withhold site (List.mem_of_getElem? found) (workshop.history site.forge)
            (site.validation statement streams registry)
          unfold Workshop.validate
          dsimp only
          cases answered : site.forge.behaviour.validate (workshop.history site.forge)
              (site.validation statement streams registry) with
          | error failure => exact .error (innocent failure answered)
          | ok handler =>
              have later := ih (workshop.record (.message site.forge.identity site.forge.maker
                (.validated (site.validation statement streams registry))))
              dsimp only
              split
              · exact .ok _
              · rename_i failure workshop visited
                rw [visited] at later
                exact later

end

theorem innocent_validate {calls : CallSites}
    (withhold : ∀ site ∈ calls.sites, site.forge.behaviour.Withholds) (workshop : Workshop)
    (statement : String) (order : List Nat) (streams : List EventType) (registry : Registry) :
    FailsOnly (fun failure => failure.error.Innocent)
      (calls.validate workshop statement order streams registry).1 := by
  have visits := innocent_validateVisits withhold statement streams registry order workshop
  unfold validate
  split
  · split
    · split
      · exact .ok _
      · rename_i failure workshop visited
        rw [visited] at visits
        exact .error (visits failure rfl)
    · rename_i failure failed
      exact .error (calls.innocent_checkOrder order failure failed)
  · exact .error trivial

end CallSites

theorem spares_runAggregations {before : Progress} (frame : Frame)
    (withhold : ∀ site ∈ before.calls.sites, site.forge.behaviour.Withholds) :
    Spares (runAggregations frame) before := by
  unfold runAggregations
  apply Spares.get_bind
  dsimp only
  split
  · rename_i failure failed
    exact .refuse (before.calls.innocent_declare _ _ _ failure failed)
  · rename_i calls workshop declared
    rw [← CallSites.sites_of_declare declared] at withhold
    have innocent := CallSites.innocent_validate withhold workshop frame.statement
      (frame.order before.calls.sites.length) (frame.streams.map StreamBinding.type)
      frame.services.registry
    apply Spares.set_bind
    split
    · exact .pure _
    · rename_i failure failed
      exact .refuse (innocent failure failed)

theorem Frame.spares_conclude {before : Progress} (frame : Frame) (statement : Statement)
    (clauses : ResolvedClauses)
    (withhold : ∀ site ∈ before.calls.sites, site.forge.behaviour.Withholds) :
    Spares (frame.conclude statement clauses) before := by
  unfold conclude
  refine (spares_runAggregations frame withhold).bind (fun handlers _ => ?_)
  exact (Spares.ofChecked (clauses.innocent_typed handlers)).bind (fun _ _ => .get_bind (.pure _))

end EventQuery
