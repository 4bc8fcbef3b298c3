import EventQuery.Proofs.Order.Reordering

set_option autoImplicit false

/-! Runs under two thorough orders come to the same places. What one run visits the other one
visits too, with the same things gathered, and a subquery that is met in one is met in the
other. -/

namespace EventQuery

open Resolution

variable {order : Nat → List Nat}

namespace Visit

variable {visit next : Visit}

def reordered (visit : Visit) (order : Nat → List Nat) (trace : List TraceEntry) : Visit :=
  ⟨visit.frame.reordered order, visit.scope, visit.expression, visit.progress.retold trace⟩

structure Steady (visit : Visit) : Prop where
  services : visit.frame.services.Steady
  progress : visit.progress.Steady

end Visit

section

variable {services : Services} {first : Nat → List Nat} {isSubquery : Bool}
  {statement : Statement} {memory : CompilerMemory} {entered : Visit} {fuel : Nat}

theorem Enters.steady
    (enters : Enters services first isSubquery statement .empty memory entered)
    (steady : services.Steady) : entered.Steady := by
  cases enters with
  | intro bound split derived => exact ⟨steady, derived.employs steady (.opening _ _)⟩

theorem Enters.reordered
    (enters : Enters services first isSubquery statement .empty memory entered)
    (steady : services.Steady) {trace : List TraceEntry}
    (thorough : Undertaking.Thorough
      ⟨services, order, isSubquery, statement, memory.retold trace, fuel⟩) :
    ∃ others, Enters services order isSubquery statement .empty (memory.retold trace)
      (entered.reordered order others) := by
  cases enters with
  | intro bound split derived =>
      obtain ⟨others, again⟩ := derived.reordered steady (.opening _ _) trace
        (thorough.items bound split)
      exact ⟨others, .intro bound split again⟩

end

namespace Visit

variable {visit next : Visit}

theorem Leads.steady (leads : visit.Leads next) (steady : visit.Steady) : next.Steady := by
  obtain ⟨services, progress⟩ := steady
  cases leads with
  | operand _ derived => exact ⟨services, derived.employs services progress⟩
  | key _ _ _ _ derived _ => exact ⟨services, derived.employs services progress⟩
  | argument _ _ _ _ derived => exact ⟨services, derived.employs services progress⟩
  | body _ _ _ derived => exact ⟨services, derived.employs services progress⟩
  | scriptArgument _ _ _ derived => exact ⟨services, derived.employs services progress⟩
  | parameter passes =>
      cases passes with
      | intro _ _ _ _ _ _ created _ derived _ =>
          exact ⟨services, derived.employs services (progress.of_resolveForge services created)⟩
  | clause _ enters => exact enters.steady services

theorem Leads.reordered (leads : visit.Leads next) (steady : visit.Steady)
    {trace : List TraceEntry} (thorough : (visit.reordered order trace).Thorough) :
    ∃ others, (visit.reordered order trace).Leads (next.reordered order others) := by
  obtain ⟨services, progress⟩ := steady
  cases leads with
  | operand split derived =>
      obtain ⟨others, again⟩ := derived.reordered services progress trace (thorough.operands split)
      exact ⟨others, .operand split again⟩
  | key known paired split first derived checked =>
      obtain ⟨others, again⟩ := derived.reordered services progress trace
        (thorough.keys known paired split first checked)
      exact ⟨others, .key known paired split first again checked⟩
  | argument declared paired unexpanded split derived =>
      obtain ⟨others, again⟩ := derived.reordered services progress trace
        (thorough.arguments split declared paired unexpanded)
      exact ⟨others, .argument declared paired unexpanded split again⟩
  | body declared paired unexpanded derived =>
      obtain ⟨others, again⟩ := derived.reordered services progress trace
        (thorough.arguments (List.append_nil _).symm declared paired unexpanded)
      exact ⟨others, .body declared paired unexpanded again⟩
  | scriptArgument undeclared found split derived =>
      obtain ⟨others, again⟩ := derived.reordered services progress trace
        (thorough.scriptArguments split undeclared found)
      exact ⟨others, .scriptArgument undeclared found split again⟩
  | parameter passes =>
      cases passes with
      | intro undeclared unscripted known notFilter notGroupBy outside created split derived seen =>
          obtain ⟨told, createdAgain⟩ := Frame.resolveForge_reordered created order trace
          obtain ⟨others, again⟩ := derived.reordered services
            (progress.of_resolveForge services created) told (thorough.parameters split undeclared
              unscripted known notFilter notGroupBy outside createdAgain seen)
          exact ⟨others, .parameter (.intro undeclared unscripted known notFilter notGroupBy outside
            createdAgain split again seen)⟩
  | clause single enters =>
      obtain ⟨others, again⟩ := enters.reordered services (thorough.subquery single 0)
      exact ⟨others, .clause single again⟩

theorem Starves.reordered {fuel : Nat} (starved : visit.Starves fuel) (steady : visit.Steady)
    {trace : List TraceEntry} (thorough : (visit.reordered order trace).Thorough) :
    (visit.reordered order trace).Starves fuel := by
  induction fuel generalizing visit trace with
  | zero => exact starves_zero _
  | succ fuel ih =>
      obtain ⟨next, leads, starvedNext⟩ := starves_succ_iff.mp starved
      obtain ⟨others, again⟩ := leads.reordered steady thorough
      have onward := ih starvedNext (leads.steady steady) (thorough.of_leads again)
      exact starves_succ_iff.mpr ⟨_, again, onward⟩

theorem descends_reordered {place : Visit}
    (reaches : Relation.ReflTransGen Descends visit place) (steady : visit.Steady)
    {trace : List TraceEntry} (thorough : (visit.reordered order trace).Thorough) :
    ∃ others, Relation.ReflTransGen Descends (visit.reordered order trace)
        (place.reordered order others) ∧ place.Steady := by
  induction reaches using Relation.ReflTransGen.head_induction_on generalizing trace with
  | refl => exact ⟨trace, .refl, steady⟩
  | head descends _ ih =>
      obtain ⟨leads, same⟩ := descends
      obtain ⟨told, again⟩ := leads.reordered steady thorough
      obtain ⟨others, onward, steadyThere⟩ := ih (leads.steady steady) (thorough.of_leads again)
      exact ⟨others, .head ⟨again, same⟩ onward, steadyThere⟩

end Visit

namespace Undertaking

variable {undertaking inner : Undertaking}

def reordered (undertaking : Undertaking) (order : Nat → List Nat) (trace : List TraceEntry) :
    Undertaking :=
  { undertaking with order := order, memory := undertaking.memory.retold trace }

theorem Meets.reordered (meets : undertaking.Meets inner) (steady : undertaking.services.Steady)
    {trace : List TraceEntry} (thorough : (undertaking.reordered order trace).Thorough) :
    ∃ others, (undertaking.reordered order trace).Meets (inner.reordered order others) ∧
      inner.services.Steady := by
  obtain ⟨entered, enters, place, reaches, opens, single, services, _, isSubquery, memory⟩ := meets
  obtain ⟨told, again⟩ := enters.reordered steady thorough
  have onThere : (entered.reordered order told).Thorough := fun _ met => thorough.of_enters again met
  obtain ⟨others, onward, steadyThere⟩ :=
    Visit.descends_reordered reaches (enters.steady steady) onThere
  refine ⟨others, ⟨_, again, _, onward, opens, single, services, rfl, isSubquery, ?_⟩, ?_⟩
  · show inner.memory.retold others = _
    rw [memory]
    rfl
  · rw [services]
    exact steadyThere.services

theorem reaches_reordered (reaches : Relation.ReflTransGen Meets undertaking inner)
    (steady : undertaking.services.Steady) {trace : List TraceEntry}
    (thorough : (undertaking.reordered order trace).Thorough) :
    ∃ others, Relation.ReflTransGen Meets (undertaking.reordered order trace)
        (inner.reordered order others) ∧ inner.services.Steady := by
  induction reaches using Relation.ReflTransGen.head_induction_on generalizing trace with
  | refl => exact ⟨trace, .refl, steady⟩
  | head meets _ ih =>
      obtain ⟨told, again, steadyThere⟩ := meets.reordered steady thorough
      obtain ⟨others, onward, services⟩ := ih steadyThere (thorough.of_meets again)
      exact ⟨others, .head again onward, services⟩

theorem Resolved.reordered (resolved : undertaking.Resolved)
    (steady : undertaking.services.Steady) {trace : List TraceEntry}
    (thorough : (undertaking.reordered order trace).Thorough) :
    ∃ fuel, ((undertaking.reordered order trace).refueled fuel).Resolved ∧
      ((undertaking.reordered order trace).refueled fuel).sites = undertaking.sites := by
  obtain ⟨streams, clauses, bound, derived, shaped⟩ := resolved.derived
  rw [frame_of_bound bound] at derived
  obtain ⟨others, again⟩ := derived.reordered steady (.opening _ _) trace
    (thorough.items bound (List.append_nil _).symm)
  have frame : (undertaking.reordered order trace).frame = .ofStatement undertaking.services order
      undertaking.isSubquery undertaking.statement streams := frame_of_bound bound
  obtain ⟨fuel, ended⟩ := @resolution_of_derived (undertaking.reordered order trace) streams clauses
    (undertaking.resolution.2.retold others) bound (by rw [frame]; exact again) shaped
  refine ⟨fuel, ⟨clauses, congrArg Prod.fst ended⟩, ?_⟩
  exact congrArg (fun resolution => resolution.2.calls.sites) ended

end Undertaking

end EventQuery
