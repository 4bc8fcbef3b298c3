import EventQuery.Proofs.History.Cache
import EventQuery.Proofs.History.Settled
import EventQuery.Proofs.Resolution.Runs

set_option autoImplicit false

/-! Two runs of one resolution, from a fresh memory and from a memory with a past. They end with
the same result up to the numbers of forges, and the memories stay alike. The lemmas follow the
constructs that resolutions are built from. -/

namespace EventQuery

/-- What was asked of factories and forges before, the types that are registered, and the caches
that may be met. -/
structure Past where
  registry : Registry
  workshop : Workshop
  settled : workshop.Settled
  caches : GetterCache → Prop
  indistinct : GetterCache.Indistinct caches registry

namespace Past

variable (past : Past)

abbrev renumber : Nat → Nat := past.workshop.renumber

/-- The second memory is the first one with the past before it. Getters may be cached in one and
not in the other. -/
structure Precedes (fresh later : CompilerMemory) : Prop where
  workshop : later.workshop = fresh.workshop.after past.workshop
  settled : fresh.workshop.Settled
  freshGetters : past.caches fresh.getters
  laterGetters : past.caches later.getters

/-- The second progress is the first one with the past before it. -/
structure Shifts (fresh later : Progress) : Prop where
  symbols : later.symbols = fresh.symbols.renamed past.renumber
  calls : later.calls = fresh.calls.renamed past.renumber
  subqueries : later.subqueries = fresh.subqueries.map (StatementSpec.renamed past.renumber)
  style : later.style = fresh.style
  memory : past.Precedes fresh.memory later.memory
  held : fresh.symbols.HeldBy fresh.memory.workshop
  sites : ∀ site ∈ fresh.calls.sites, fresh.memory.workshop.Holds site.forge

variable {past} {fresh shifted : Progress}

theorem Shifts.told (shifts : past.Shifts fresh shifted) {calls : CallSites} {workshop : Workshop}
    (settled : workshop.Settled)
    (next : workshop.nextIdentity = fresh.memory.workshop.nextIdentity)
    (sites : calls.sites = fresh.calls.sites) :
    past.Shifts
      { fresh with calls := calls, memory := { fresh.memory with workshop := workshop } }
      { shifted with
        calls := calls.renamed past.renumber
        memory := { shifted.memory with workshop := workshop.after past.workshop } } :=
  have grown := Nat.le_of_eq next.symm
  { shifts with
    calls := rfl
    memory := { shifts.memory with workshop := rfl, settled := settled }
    held := shifts.held.mono grown
    sites := by
      dsimp only
      rw [sites]
      exact fun site member => (shifts.sites site member).of_le grown }

end Past

namespace Resolution

variable {α β γ δ : Type}

structure MirroredAt (past : Past) (carry : α → β) (action : Resolution α)
    (later : Resolution β) (fresh shifted : Progress) : Prop where
  result : (later.outcome shifted).1 = (action.outcome fresh).1.map carry
  progress : past.Shifts (action.outcome fresh).2 (later.outcome shifted).2
  grown : fresh.memory.workshop.nextIdentity ≤
    (action.outcome fresh).2.memory.workshop.nextIdentity

/-- From any progress and the same one with a past before it, two resolutions end alike. -/
def Mirrored (past : Past) (carry : α → β) (action : Resolution α) (later : Resolution β) :
    Prop :=
  ∀ fresh shifted, past.Shifts fresh shifted → MirroredAt past carry action later fresh shifted

variable {past : Past} {fresh shifted : Progress}

namespace MirroredAt

theorem pure {carry : α → β} (shifts : past.Shifts fresh shifted) (value : α) :
    MirroredAt past carry (pure value) (pure (carry value)) fresh shifted :=
  ⟨rfl, shifts, Nat.le_refl _⟩

theorem throw {carry : α → β} (shifts : past.Shifts fresh shifted) (fault : CompileFault) :
    MirroredAt past carry (throw fault) (throw fault) fresh shifted :=
  ⟨rfl, shifts, Nat.le_refl _⟩

theorem bind_of_yields {carry : α → β} {carryNext : γ → δ} {action : Resolution α}
    {later : Resolution β} {next : α → Resolution γ} {laterNext : β → Resolution δ}
    (first : MirroredAt past carry action later fresh shifted)
    (rest : ∀ value between shiftedBetween, Yields action fresh value between →
      past.Shifts between shiftedBetween →
      fresh.memory.workshop.nextIdentity ≤ between.memory.workshop.nextIdentity →
      MirroredAt past carryNext (next value) (laterNext (carry value)) between shiftedBetween) :
    MirroredAt past carryNext (action >>= next) (later >>= laterNext) fresh shifted := by
  obtain ⟨result, progress, grown⟩ := first
  cases run : action.outcome fresh with
  | mk ended between =>
      cases laterRun : later.outcome shifted with
      | mk laterEnded laterBetween =>
          rw [run, laterRun] at result progress
          rw [run] at grown
          cases ended with
          | error fault =>
              cases result
              refine ⟨?_, ?_, ?_⟩
              · simp only [outcome_bind, run, laterRun]
                rfl
              · simpa only [outcome_bind, run, laterRun] using progress
              · simpa only [outcome_bind, run] using grown
          | ok value =>
              cases result
              have following := rest value between laterBetween run progress grown
              refine ⟨?_, ?_, ?_⟩
              · simpa only [outcome_bind, run, laterRun] using following.result
              · simpa only [outcome_bind, run, laterRun] using following.progress
              · simpa only [outcome_bind, run] using Nat.le_trans grown following.grown

theorem bind {carry : α → β} {carryNext : γ → δ} {action : Resolution α} {later : Resolution β}
    {next : α → Resolution γ} {laterNext : β → Resolution δ}
    (first : MirroredAt past carry action later fresh shifted)
    (rest : ∀ value, Mirrored past carryNext (next value) (laterNext (carry value))) :
    MirroredAt past carryNext (action >>= next) (later >>= laterNext) fresh shifted :=
  first.bind_of_yields (fun value between shiftedBetween _ shifts _ =>
    rest value between shiftedBetween shifts)

theorem get_bind {carry : α → β} {next : Progress → Resolution α}
    {laterNext : Progress → Resolution β}
    (rest : MirroredAt past carry (next fresh) (laterNext shifted) fresh shifted) :
    MirroredAt past carry (get >>= next) (get >>= laterNext) fresh shifted :=
  ⟨rest.result, rest.progress, rest.grown⟩

theorem set_bind {carry : α → β} {next : PUnit → Resolution α} {laterNext : PUnit → Resolution β}
    {freshSet shiftedSet : Progress}
    (grown : fresh.memory.workshop.nextIdentity ≤ freshSet.memory.workshop.nextIdentity)
    (rest : MirroredAt past carry (next ()) (laterNext ()) freshSet shiftedSet) :
    MirroredAt past carry (set freshSet >>= next) (set shiftedSet >>= laterNext) fresh shifted :=
  ⟨rest.result, rest.progress, Nat.le_trans grown rest.grown⟩

end MirroredAt

namespace Mirrored

theorem pure {carry : α → β} (value : α) :
    Mirrored past carry (pure value) (pure (carry value)) :=
  fun _ _ shifts => .pure shifts value

theorem throw {carry : α → β} (fault : CompileFault) :
    Mirrored past carry (throw fault) (throw fault) :=
  fun _ _ shifts => .throw shifts fault

theorem bind {carry : α → β} {carryNext : γ → δ} {action : Resolution α} {later : Resolution β}
    {next : α → Resolution γ} {laterNext : β → Resolution δ}
    (first : Mirrored past carry action later)
    (rest : ∀ value, Mirrored past carryNext (next value) (laterNext (carry value))) :
    Mirrored past carryNext (action >>= next) (later >>= laterNext) :=
  fun fresh shifted shifts => (first fresh shifted shifts).bind rest

theorem ofChecked (checked : Except LocatedError α) :
    Mirrored past id (ofChecked checked) (ofChecked checked) := by
  cases checked with
  | ok value => exact .pure value
  | error failure => exact .throw _

theorem map {action : Resolution α} (change : α → β) (first : Mirrored past id action action) :
    Mirrored past id (change <$> action) (change <$> action) := by
  rw [map_eq_pure_bind]
  exact first.bind (fun value => .pure (change value))

theorem mapM {action : α → Resolution β}
    (each : ∀ item, Mirrored past id (action item) (action item)) (items : List α) :
    Mirrored past id (items.mapM action) (items.mapM action) := by
  induction items with
  | nil => exact .pure []
  | cons item items ih =>
      rw [List.mapM_cons]
      exact (each item).bind (fun first => ih.bind (fun rest => .pure (first :: rest)))

theorem optionMapM {action : α → Resolution β}
    (each : ∀ item, Mirrored past id (action item) (action item)) (item : Option α) :
    Mirrored past id (item.mapM action) (item.mapM action) := by
  cases item with
  | none => exact .pure none
  | some present => exact (each present).map some

end Mirrored

structure Plain (change : SymbolContext → SymbolContext) : Prop where
  renamed : ∀ rename symbols, change (SymbolContext.renamed rename symbols) =
    (change symbols).renamed rename
  forges : ∀ symbols, (change symbols).forges = symbols.forges

theorem Mirrored.modifySymbols {carry : α → β} {change : SymbolContext → SymbolContext}
    {next : Resolution α} {laterNext : Resolution β} (plain : Plain change)
    (rest : Mirrored past carry next laterNext) :
    Mirrored past carry (modifySymbols change >>= fun _ => next)
      (modifySymbols change >>= fun _ => laterNext) := by
  intro fresh shifted shifts
  have held : (change fresh.symbols).HeldBy fresh.memory.workshop := by
    intro entry member
    unfold SymbolContext.registeredForges at member
    rw [plain.forges] at member
    exact shifts.held entry member
  have renamed : change shifted.symbols = (change fresh.symbols).renamed past.renumber := by
    rw [shifts.symbols, plain.renamed]
  have following := rest { fresh with symbols := change fresh.symbols }
    { shifted with symbols := change shifted.symbols }
    { shifts with symbols := renamed, held := held }
  exact ⟨following.result, following.progress, following.grown⟩

end Resolution

end EventQuery
