import EventQuery.Compile.Names
import EventQuery.Proofs.Resolution.Runs

set_option autoImplicit false

/-! What the resolutions of leaves have nothing to do with: call sites, forges and the workshop.
A leaf ends in the same way whatever these are, and leaves them as they are. -/

namespace EventQuery

def Progress.among (progress : Progress) (calls : CallSites)
    (forges : Option (List (AggregationKey × Forge))) (workshop : Workshop) : Progress :=
  { progress with
    symbols := { progress.symbols with forges := forges }
    calls := calls
    memory := { progress.memory with workshop := workshop } }

namespace Resolution

variable {α β : Type}

/-- The resolution neither reads nor changes call sites, forges and the workshop. -/
def Local (action : Resolution α) : Prop :=
  ∀ before calls forges workshop,
    action.outcome (before.among calls forges workshop) =
      ((action.outcome before).1, (action.outcome before).2.among calls forges workshop)

namespace Local

theorem pure (value : α) : Local (pure value) :=
  fun _ _ _ _ => rfl

theorem refuse (error : ValidationError) (position : Option Position) :
    Local (refuse error position : Resolution α) :=
  fun _ _ _ _ => rfl

theorem bind {action : Resolution α} {next : α → Resolution β} (first : Local action)
    (rest : ∀ value, Local (next value)) : Local (action >>= next) := by
  intro before calls forges workshop
  rw [outcome_bind, outcome_bind, first before calls forges workshop]
  cases action.outcome before with
  | mk result between =>
      cases result with
      | error fault => rfl
      | ok value => exact rest value between calls forges workshop

theorem modifySymbols_bind {change : SymbolContext → SymbolContext} {next : Unit → Resolution β}
    (apart : ∀ symbols forges, change { symbols with forges := forges } =
      { change symbols with forges := forges })
    (rest : Local (next ())) : Local (modifySymbols change >>= next) := by
  intro before calls forges workshop
  have changed : { before.among calls forges workshop with
      symbols := change (before.among calls forges workshop).symbols } =
      { before with symbols := change before.symbols }.among calls forges workshop := by
    unfold Progress.among
    rw [apart]
  have following := rest { before with symbols := change before.symbols } calls forges workshop
  rw [← changed] at following
  exact following

theorem kept {action : Resolution α} (apart : Local action) (before : Progress) :
    (action.outcome before).2.calls = before.calls ∧
      (action.outcome before).2.symbols.forges = before.symbols.forges ∧
      (action.outcome before).2.memory.workshop = before.memory.workshop := by
  have same := apart before before.calls before.symbols.forges before.memory.workshop
  have after := congrArg Prod.snd same
  have calls := congrArg Progress.calls after
  have forges := congrArg (fun progress => progress.symbols.forges) after
  have workshop := congrArg (fun progress => progress.memory.workshop) after
  exact ⟨calls, forges, workshop⟩

end Local

end Resolution

open Resolution

namespace Frame

variable (frame : Frame) (scope : Scope)

theorem local_resolveStreamProperty (stream : StreamBinding × Nat) (path : String)
    (position : Option Position) : Local (frame.resolveStreamProperty stream path position) := by
  intro before calls forges workshop
  have getters : (before.among calls forges workshop).memory.getters = before.memory.getters := rfl
  unfold resolveStreamProperty
  rw [outcome_get_bind, outcome_get_bind, getters]
  cases before.memory.getters.compile frame.services.registry stream.1.type path with
  | mk result getters =>
      cases result with
      | ok compiled => rfl
      | error failure => rfl

theorem local_resolvePath (path : String) (position : Option Position) :
    Local (frame.resolvePath scope path position) := by
  unfold resolvePath
  split
  · exact .pure _
  · split
    · exact frame.local_resolveStreamProperty _ _ _
    · exact .refuse _ _
    · split
      · exact frame.local_resolveStreamProperty _ _ _
      · split
        · exact .modifySymbols_bind (fun _ _ => rfl) (.pure _)
        · split
          · exact frame.local_resolveStreamProperty _ _ _
          · exact .refuse _ _

theorem local_resolveProperty (node : PropertyNode) : Local (frame.resolveProperty scope node) := by
  unfold resolveProperty
  split
  · split
    · exact frame.local_resolveStreamProperty _ _ _
    · exact .refuse _ _
  · exact frame.local_resolvePath scope _ _

theorem local_resolvePrior (position : Option Position) (index : Nat) (node : PropertyNode) :
    Local (frame.resolvePrior scope position index node) := by
  refine (frame.local_resolveProperty scope node).bind (fun tree => ?_)
  split
  · exact .modifySymbols_bind (fun _ _ => rfl) (.pure _)
  · exact .refuse _ _

theorem local_resolveWildcard (position : Option Position) (stream : Option String) :
    Local (frame.resolveWildcard scope position stream) := by
  unfold resolveWildcard
  split
  · split
    · split
      · exact .pure _
      · exact .refuse _ _
    · split
      · exact .pure _
      · exact .refuse _ _
  · exact .refuse _ _

theorem local_resolveSubstitution (node : SubstitutionNode) :
    Local (frame.resolveSubstitution node) := by
  unfold resolveSubstitution
  split
  · exact .refuse _ _
  · intro before calls forges workshop
    have style : (before.among calls forges workshop).style = before.style := rfl
    rw [outcome_get_bind, outcome_get_bind, style]
    dsimp only
    generalize (if node.name.isSome then ParameterStyle.named else .unnamed) = wanted
    by_cases mixed : before.style.any (fun other => other ≠ wanted) = true
    · rw [if_pos mixed, if_pos mixed]
      rfl
    · rw [if_neg mixed, if_neg mixed]
      rfl

end Frame

end EventQuery
