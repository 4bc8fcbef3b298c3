import EventQuery.Proofs.Protocol.Phases
import EventQuery.Proofs.Termination.Recurrence

set_option autoImplicit false

/-! Which statements a compilation comes to: the statement itself, its subqueries, and theirs. The
order of a compilation is thorough when it visits all call sites of each of them exactly once. -/

namespace EventQuery

open Resolution

namespace Undertaking

variable {undertaking inner : Undertaking} {fuel : Nat}

def refueled (undertaking : Undertaking) (fuel : Nat) : Undertaking :=
  { undertaking with fuel := fuel }

/-- A statement whose clauses are resolved, with whatever fuel, has each of its call sites visited
exactly once; and so have its subqueries, at any depth. -/
def Thorough (undertaking : Undertaking) : Prop :=
  ∀ inner, Relation.ReflTransGen Meets undertaking inner → ∀ fuel,
    (inner.refueled fuel).Resolved → (inner.refueled fuel).VisitsOnce

theorem Thorough.of_meets (thorough : undertaking.Thorough) (meets : undertaking.Meets inner) :
    inner.Thorough :=
  fun other reaches => thorough other (.head meets reaches)

theorem Thorough.of_enters {entered : Visit} (thorough : undertaking.Thorough)
    (enters : Enters undertaking.services undertaking.order undertaking.isSubquery
      undertaking.statement .empty undertaking.memory entered)
    (meets : entered.Meets inner) : inner.Thorough :=
  thorough.of_meets ⟨entered, enters, meets⟩

theorem Meets.order_eq (meets : undertaking.Meets inner) : inner.order = undertaking.order := by
  obtain ⟨entered, enters, place, reaches, -, -, -, order, -⟩ := meets
  have start : entered.frame.order = undertaking.order := by
    cases enters
    rfl
  have onward : place.frame.order = entered.frame.order := by
    clear enters order start
    induction reaches with
    | refl => rfl
    | tail _ descends ih => exact descends.1.order_eq.trans ih
  exact order.trans (onward.trans start)

/-- An order of which every number of call sites gets a permutation is thorough. -/
theorem thorough_of_perm
    (once : ∀ count, (undertaking.order count).Perm (List.range count)) :
    undertaking.Thorough := by
  intro inner reaches fuel
  have same : inner.order = undertaking.order := by
    induction reaches with
    | refl => rfl
    | tail _ meets ih => exact meets.order_eq.trans ih
  intro _
  have visits : (inner.refueled fuel).visits =
      undertaking.order (inner.refueled fuel).sites.length := by
    rw [← same]
    rfl
  unfold VisitsOnce
  rw [visits]
  exact once _

theorem Resolved.derived (resolved : undertaking.Resolved) :
    ∃ (streams : List StreamBinding) (clauses : ResolvedClauses),
      bindStreams undertaking.services.registry [] undertaking.statement.streams = .ok streams ∧
      ResolvesAll undertaking.frame undertaking.statement.items undertaking.opening clauses.trees
        undertaking.resolution.2 ∧ clauses.Shaped undertaking.statement := by
  obtain ⟨clauses, ended⟩ := resolved
  cases bound : bindStreams undertaking.services.registry [] undertaking.statement.streams with
  | error failure =>
      unfold resolution at ended
      rw [bound] at ended
      cases ended
  | ok streams =>
      have run : Yields (resolveClauses (resolve .spent undertaking.fuel undertaking.frame)
          undertaking.statement) undertaking.opening clauses undertaking.resolution.2 := by
        unfold Yields
        rw [← resolution_of_bound bound, ← ended]
      obtain ⟨whole, shaped⟩ := yields_resolveClauses_iff.mp run
      exact ⟨streams, clauses, rfl, (resolve_sound _).resolvesAll whole, shaped⟩

theorem resolution_of_derived {streams : List StreamBinding} {clauses : ResolvedClauses}
    {between : Progress}
    (bound : bindStreams undertaking.services.registry [] undertaking.statement.streams =
      .ok streams)
    (derived : ResolvesAll undertaking.frame undertaking.statement.items undertaking.opening
      clauses.trees between)
    (shaped : clauses.Shaped undertaking.statement) :
    ∃ fuel, (undertaking.refueled fuel).resolution = (.ok clauses, between) := by
  obtain ⟨fuel, run⟩ := derived.yields
  refine ⟨fuel, ?_⟩
  rw [@resolution_of_bound (undertaking.refueled fuel) streams bound]
  exact yields_resolveClauses_iff.mpr ⟨run, shaped⟩

theorem Thorough.once {streams : List StreamBinding} {clauses : ResolvedClauses}
    {between : Progress} (thorough : undertaking.Thorough)
    (bound : bindStreams undertaking.services.registry [] undertaking.statement.streams =
      .ok streams)
    (derived : ResolvesAll undertaking.frame undertaking.statement.items undertaking.opening
      clauses.trees between)
    (shaped : clauses.Shaped undertaking.statement) :
    (undertaking.order between.calls.sites.length).Perm
      (List.range between.calls.sites.length) := by
  obtain ⟨fuel, ended⟩ := resolution_of_derived bound derived shaped
  have once := thorough undertaking .refl fuel ⟨clauses, congrArg Prod.fst ended⟩
  have sites : (undertaking.refueled fuel).sites = between.calls.sites :=
    congrArg (fun resolution => resolution.2.calls.sites) ended
  unfold VisitsOnce visits at once
  rw [sites] at once
  exact once

end Undertaking

namespace Visit

variable {visit next : Visit}

/-- All subqueries that the visit comes to are compiled thoroughly. -/
def Thorough (visit : Visit) : Prop :=
  ∀ undertaking, visit.Meets undertaking → undertaking.Thorough

theorem Thorough.subquery {frame : Frame} {scope : Scope} {position : Option Position}
    {statement : Statement} {before : Progress}
    (thorough : Thorough ⟨frame, scope, .subquery position statement, before⟩)
    (single : statement.select.length = 1) (fuel : Nat) :
    Undertaking.Thorough
      ⟨frame.services, frame.order, true, statement, before.memory, fuel⟩ :=
  thorough _ ⟨_, .refl, ⟨position, rfl⟩, single, rfl, rfl, rfl, rfl⟩

theorem Thorough.of_leads (thorough : visit.Thorough) (leads : visit.Leads next) :
    next.Thorough := by
  have elsewhere (same : ∀ position statement, visit.expression ≠ .subquery position statement) :
      next.Thorough := by
    intro undertaking meets
    exact thorough undertaking (Descends.meets ⟨leads, same⟩ meets)
  cases leads with
  | clause single enters =>
      intro inner meets
      exact (thorough.subquery single 0).of_enters enters meets
  | operand split derived =>
      refine elsewhere (fun position statement same => ?_)
      dsimp only at same
      subst same
      simp [Expression.operands] at split
  | _ =>
      refine elsewhere (fun position statement same => ?_)
      cases same

end Visit

end EventQuery
