import EventQuery.Compile
import EventQuery.Proofs.Checked

set_option autoImplicit false

/-! Forges under other identities. What a forge answers depends on the messages that it had, not
on its number, so a workshop that has a past behaves like a fresh one whose forges are numbered
from where the past ends. -/

namespace EventQuery

variable (rename : Nat → Nat)

def Forge.renamed (forge : Forge) : Forge :=
  { forge with identity := rename forge.identity }

def TraceEntry.renamed : TraceEntry → TraceEntry
  | creation factory family => creation factory family
  | message identity maker callback => message (rename identity) maker callback

def CallSite.renamed (site : CallSite) : CallSite :=
  { site with forge := site.forge.renamed rename }

def CallSites.renamed (calls : CallSites) : CallSites :=
  { calls with sites := calls.sites.map (CallSite.renamed rename) }

def renamedForges (forges : List (AggregationKey × Forge)) : List (AggregationKey × Forge) :=
  forges.map (fun entry => (entry.1, entry.2.renamed rename))

def SymbolContext.renamed (symbols : SymbolContext) : SymbolContext :=
  { symbols with forges := symbols.forges.map (renamedForges rename) }

mutual

/-- A spec in which the forges have other identities, in the subqueries as well. -/
def StatementSpec.renamed : StatementSpec → StatementSpec
  | ⟨name, text, contextName, hasPrior, variableNames, tables, declarations, scripts,
      substitutions, forges, streams, select, filter, groupBy, having, aggregations, states,
      subqueries⟩ =>
      ⟨name, text, contextName, hasPrior, variableNames, tables, declarations, scripts,
        substitutions, renamedForges rename forges, streams, select, filter, groupBy, having,
        aggregations, states, renamedSpecs subqueries⟩
termination_by structural spec => spec

def renamedSpecs : List StatementSpec → List StatementSpec
  | [] => []
  | spec :: rest => spec.renamed :: renamedSpecs rest
termination_by structural specs => specs

end

theorem renamedSpecs_eq_map (specs : List StatementSpec) :
    renamedSpecs rename specs = specs.map (StatementSpec.renamed rename) := by
  induction specs with
  | nil => rfl
  | cons spec rest ih => rw [renamedSpecs, ih, List.map_cons]

mutual

theorem StatementSpec.renamed_renamed (first second : Nat → Nat) : (spec : StatementSpec) →
    (spec.renamed first).renamed second = spec.renamed (second ∘ first)
  | ⟨name, text, contextName, hasPrior, variableNames, tables, declarations, scripts,
      substitutions, forges, streams, select, filter, groupBy, having, aggregations, states,
      subqueries⟩ => by
      have same : renamedForges second (renamedForges first forges) =
          renamedForges (second ∘ first) forges := by
        unfold renamedForges
        rw [List.map_map]
        rfl
      simp only [StatementSpec.renamed, same, renamedSpecs_renamedSpecs first second subqueries]

theorem renamedSpecs_renamedSpecs (first second : Nat → Nat) : (specs : List StatementSpec) →
    renamedSpecs second (renamedSpecs first specs) = renamedSpecs (second ∘ first) specs
  | [] => rfl
  | spec :: rest => by
      rw [renamedSpecs, renamedSpecs, renamedSpecs,
        StatementSpec.renamed_renamed first second spec,
        renamedSpecs_renamedSpecs first second rest]

end

namespace SymbolContext

theorem lookup_renamedForges (forges : List (AggregationKey × Forge)) (key : AggregationKey) :
    (renamedForges rename forges).lookup key = (forges.lookup key).map (Forge.renamed rename) := by
  induction forges with
  | nil => rfl
  | cons entry forges ih =>
      unfold renamedForges at ih ⊢
      rw [List.map_cons, List.lookup_cons, List.lookup_cons, ih]
      cases key == entry.1 <;> rfl

theorem registeredForges_renamed (symbols : SymbolContext) :
    (symbols.renamed rename).registeredForges =
      renamedForges rename symbols.registeredForges := by
  unfold registeredForges renamed
  cases symbols.forges <;> rfl

theorem forge?_renamed (symbols : SymbolContext) (key : AggregationKey) :
    (symbols.renamed rename).forge? key = (symbols.forge? key).map (Forge.renamed rename) := by
  unfold forge?
  rw [registeredForges_renamed, lookup_renamedForges]

theorem addForge_renamed (symbols : SymbolContext) (key : AggregationKey) (forge : Forge) :
    (symbols.renamed rename).addForge key (forge.renamed rename) =
      (symbols.addForge key forge).renamed rename := by
  unfold addForge
  rw [registeredForges_renamed]
  simp only [renamed, Entries.put, renamedForges, List.filter_map, Option.map_some, mk.injEq,
    List.map_append, List.map_cons, List.map_nil, Option.some.injEq, true_and]
  rfl

theorem foldInto_renamed (symbols : SymbolContext) (spec : StatementSpec) :
    (symbols.renamed rename).foldInto (spec.renamed rename) =
      (symbols.foldInto spec).renamed rename := by
  cases spec
  simp only [foldInto, registeredForges_renamed]
  rfl

end SymbolContext

theorem assignSlots_renamed (slots : List StateSlot) (sites : List CallSite)
    (handlers : List Handler) :
    assignSlots slots ((sites.map (CallSite.renamed rename)).zip handlers) =
      assignSlots slots (sites.zip handlers) := by
  induction sites generalizing slots handlers with
  | nil => rfl
  | cons site sites ih =>
      cases handlers with
      | nil => rfl
      | cons handler handlers =>
          rw [List.map_cons, List.zip_cons_cons, List.zip_cons_cons]
          unfold assignSlots
          simp only [ih]
          rfl

theorem Frame.assemble_renamed (frame : Frame) (statement : Statement) (clauses : ResolvedClauses)
    (sites : List CallSite) (handlers : List Handler) (subqueries : List StatementSpec) :
    frame.assemble statement clauses (sites.map (CallSite.renamed rename)) handlers
        (subqueries.map (StatementSpec.renamed rename)) =
      (frame.assemble statement clauses sites handlers subqueries).renamed rename := by
  simp only [assemble, assignSlots_renamed, StatementSpec.named, StatementSpec.renamed,
    renamedSpecs_eq_map]
  rfl

/-! ### Workshops with a past -/

namespace Workshop

/-- Messages went to forges that exist only. -/
def Settled (workshop : Workshop) : Prop :=
  ∀ identity maker callback, .message identity maker callback ∈ workshop.trace →
    identity < workshop.nextIdentity

/-- The number that a forge has after a given past. -/
def renumber (past : Workshop) (identity : Nat) : Nat :=
  past.nextIdentity + identity

/-- What a workshop has become when it started with a given past instead of none. -/
def after (workshop past : Workshop) : Workshop :=
  ⟨past.nextIdentity + workshop.nextIdentity,
    past.trace ++ workshop.trace.map (TraceEntry.renamed past.renumber)⟩

theorem settled_empty : empty.Settled := by
  intro identity maker callback member
  cases member

theorem empty_after (past : Workshop) : empty.after past = past := by
  simp [after, empty]

variable {workshop past : Workshop}

theorem record_after (entry : TraceEntry) :
    (workshop.after past).record (entry.renamed past.renumber) =
      (workshop.record entry).after past := by
  simp [record, after, List.append_assoc]

theorem history_of_new (settled : past.Settled) {forge : Forge}
    (new : past.nextIdentity ≤ forge.identity) : past.history forge = [] := by
  unfold history
  rw [List.filterMap_eq_nil_iff]
  intro entry member
  cases entry with
  | creation factory family => rfl
  | message identity maker callback =>
      have existing := settled identity maker callback member
      have different : identity ≠ forge.identity := by omega
      exact if_neg different

theorem history_after (settled : past.Settled) (forge : Forge) :
    (workshop.after past).history (forge.renamed past.renumber) = workshop.history forge := by
  have new : past.nextIdentity ≤ (forge.renamed past.renumber).identity := Nat.le_add_right _ _
  have earlier := history_of_new settled new
  unfold history at earlier ⊢
  unfold after
  rw [List.filterMap_append, earlier, List.nil_append, List.filterMap_map]
  congr 1
  funext entry
  cases entry with
  | creation factory family => rfl
  | message identity maker callback =>
      simp only [Function.comp_apply, TraceEntry.renamed, Forge.renamed, renumber,
        Nat.add_left_cancel_iff]

theorem declare_after (forge : Forge) (declaration : CallDeclaration) :
    (workshop.after past).declare (forge.renamed past.renumber) declaration =
      (workshop.declare forge declaration).after past :=
  record_after (.message forge.identity forge.maker (.declared declaration))

theorem validate_after (settled : past.Settled) (forge : Forge) (validation : CallValidation) :
    (workshop.after past).validate (forge.renamed past.renumber) validation =
      ((workshop.validate forge validation).1, (workshop.validate forge validation).2.after past) := by
  unfold validate
  rw [history_after settled]
  exact congrArg (Prod.mk _)
    (record_after (.message forge.identity forge.maker (.validated validation)))

theorem create_after (factory : AggregationFactory) (family : FunctionFamily) :
    (workshop.after past).create factory family =
      ((workshop.create factory family).1.map (Forge.renamed past.renumber),
        (workshop.create factory family).2.after past) := by
  have asked : (workshop.after past).record (.creation factory.name family) =
      (workshop.record (.creation factory.name family)).after past :=
    record_after (.creation factory.name family)
  unfold create
  rw [asked]
  cases factory.create family with
  | ok behaviour => rfl
  | error failure => rfl

theorem createForge_after (services : Services) (family : FunctionFamily) :
    services.createForge family (workshop.after past) =
      ((services.createForge family workshop).1.map (Forge.renamed past.renumber),
        (services.createForge family workshop).2.after past) := by
  unfold Services.createForge
  cases services.factories.lookup family.factory with
  | some factory => exact create_after factory family
  | none => rfl

theorem resolveForge_after (services : Services) (family : FunctionFamily)
    (symbols : SymbolContext) (key : AggregationKey) :
    (symbols.renamed past.renumber).resolveForge key (services.createForge family)
        (workshop.after past) =
      ((symbols.resolveForge key (services.createForge family) workshop).1.map
          (fun (forge, symbols) => (forge.renamed past.renumber, symbols.renamed past.renumber)),
        (symbols.resolveForge key (services.createForge family) workshop).2.after past) := by
  unfold SymbolContext.resolveForge
  rw [SymbolContext.forge?_renamed]
  cases symbols.forge? key with
  | some forge => rfl
  | none =>
      simp only [Option.map_none, createForge_after]
      cases services.createForge family workshop with
      | mk result workshop =>
          cases result with
          | error failure => rfl
          | ok forge =>
              simp only [Except.map, SymbolContext.addForge_renamed]

end Workshop

namespace CallSites

variable {workshop past : Workshop} {calls : CallSites} {sites : List CallSite}

theorem add_renamed (site : CallSite) :
    (calls.renamed rename).add (site.renamed rename) =
      (calls.add site).map (fun (index, calls) => (index, calls.renamed rename)) := by
  unfold add renamed
  dsimp only
  split
  · simp [Except.map]
  · rfl

theorem checkOrder_renamed (order : List Nat) :
    (calls.renamed rename).checkOrder order = calls.checkOrder order := by
  unfold checkOrder renamed
  rw [List.length_map]

theorem declareVisits_after (statement : String) (order : List Nat) :
    declareVisits (sites.map (CallSite.renamed past.renumber)) statement order
        (workshop.after past) =
      (declareVisits sites statement order workshop).after past := by
  induction order generalizing workshop with
  | nil => rfl
  | cons index order ih =>
      unfold declareVisits
      rw [List.getElem?_map]
      cases sites[index]? with
      | none => exact ih
      | some site =>
          dsimp only [Option.map_some]
          have told : (workshop.after past).declare (site.forge.renamed past.renumber)
              (site.declaration statement) = _ := Workshop.declare_after _ _
          exact (congrArg _ told).trans ih

theorem declare_after (statement : String) (order : List Nat) :
    (calls.renamed past.renumber).declare (workshop.after past) statement order =
      (calls.declare workshop statement order).map
        (fun (calls, workshop) => (calls.renamed past.renumber, workshop.after past)) := by
  have phase : (calls.renamed past.renumber).phase = calls.phase := rfl
  unfold declare
  rw [checkOrder_renamed, phase]
  split
  · cases calls.checkOrder order with
    | error failure => rfl
    | ok _ => exact congrArg (fun workshop => Except.ok (_, workshop)) (declareVisits_after _ _)
  · rfl

theorem validateVisits_after (settled : past.Settled) (statement : String)
    (streams : List EventType) (registry : Registry) (order : List Nat) :
    validateVisits (sites.map (CallSite.renamed past.renumber)) statement streams registry order
        (workshop.after past) =
      ((validateVisits sites statement streams registry order workshop).1,
        (validateVisits sites statement streams registry order workshop).2.after past) := by
  induction order generalizing workshop with
  | nil => rfl
  | cons index order ih =>
      unfold validateVisits
      rw [List.getElem?_map]
      cases sites[index]? with
      | none => exact ih
      | some site =>
          dsimp only [Option.map_some]
          have asked : Workshop.validate (workshop.after past)
              (CallSite.renamed past.renumber site).forge
              ((CallSite.renamed past.renumber site).validation statement streams registry) = _ :=
            Workshop.validate_after settled site.forge
              (site.validation statement streams registry)
          rw [asked]
          cases workshop.validate site.forge (site.validation statement streams registry) with
          | mk result workshop =>
              cases result with
              | error failure => rfl
              | ok handler =>
                  dsimp only
                  rw [ih]
                  cases validateVisits sites statement streams registry order workshop with
                  | mk result workshop => cases result <;> rfl

theorem validate_after (settled : past.Settled) (statement : String) (order : List Nat)
    (streams : List EventType) (registry : Registry) :
    (calls.renamed past.renumber).validate (workshop.after past) statement order streams registry =
      ((calls.validate workshop statement order streams registry).1,
        (calls.validate workshop statement order streams registry).2.1.renamed past.renumber,
        (calls.validate workshop statement order streams registry).2.2.after past) := by
  unfold validate
  rw [checkOrder_renamed]
  have natural : (calls.renamed past.renumber).naturalOrder = calls.naturalOrder := by
    unfold naturalOrder renamed
    rw [List.length_map]
  have phase : (calls.renamed past.renumber).phase = calls.phase := rfl
  rw [natural, phase]
  split
  · cases calls.checkOrder order with
    | error failure => rfl
    | ok _ =>
        have visits : validateVisits (calls.renamed past.renumber).sites statement streams registry
            order (workshop.after past) = _ :=
          validateVisits_after settled statement streams registry order
        dsimp only
        rw [visits]
        cases validateVisits calls.sites statement streams registry order workshop with
        | mk result workshop => cases result <;> rfl
  · rfl

theorem position_renamed (rename : Nat → Nat) (index : Nat) :
    ((calls.renamed rename).sites[index]?).bind (fun site => site.node.position) =
      (calls.sites[index]?).bind (fun site => site.node.position) := by
  unfold renamed
  rw [List.getElem?_map]
  cases calls.sites[index]? <;> rfl

end CallSites

end EventQuery
