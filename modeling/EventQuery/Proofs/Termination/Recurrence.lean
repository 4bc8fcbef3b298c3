import EventQuery.Proofs.History.Session
import EventQuery.Proofs.Termination.Budget

set_option autoImplicit false

/-! Which compilations end. One that enters a subquery inside itself never does, since what the
subquery gives does not depend on what was compiled before; any other one ends, and the fuel
that is worked out for it suffices. -/

namespace EventQuery

open Resolution

/-- The visit is made with a past that compilations do not depend on. -/
def Visit.Sound (visit : Visit) : Prop :=
  ∃ past fresh, (∀ cache, past.caches cache → cache.Faithful past.registry) ∧
    visit.frame.Registered past ∧ past.Shifts fresh visit.progress

private theorem shifts_of_resolvesAll {past : Past} {frame : Frame}
    {items : List (Scope × Expression)} {before fresh after : Progress} {trees : List Resolved}
    (registered : frame.Registered past) (shifts : past.Shifts fresh before)
    (derived : ResolvesAll frame items before trees after) :
    ∃ later, past.Shifts later after := by
  obtain ⟨fuel, run⟩ := derived.yields
  have alike : Mirrored past id
      (items.mapM (fun item => resolve .spent fuel frame item.1 item.2))
      (items.mapM (fun item => resolve .spent fuel frame item.1 item.2)) :=
    .mapM (fun item => mirrored_resolve past fuel frame item.1 item.2 registered) items
  have progress := (alike fresh before shifts).progress
  rw [run] at progress
  exact ⟨_, progress⟩

theorem Enters.sound {past : Past} {services : Services} {order : Nat → List Nat}
    {isSubquery : Bool} {statement : Statement} {memory fresh : CompilerMemory} {visit : Visit}
    (enters : Enters services order isSubquery statement .empty memory visit)
    (faithful : ∀ cache, past.caches cache → cache.Faithful past.registry)
    (registry : services.registry = past.registry) (precedes : past.Precedes fresh memory) :
    visit.Sound := by
  cases enters with
  | @intro streams done scope expression rest trees between bound split derived =>
      have registered : (Frame.ofStatement services order isSubquery statement
          streams).Registered past := by
        refine ⟨registry, ?_⟩
        rw [← registry]
        exact registered_of_bindStreams (List.forall_mem_nil _) bound
      have shifts := shifts_opening statement precedes
      obtain ⟨later, kept⟩ := shifts_of_resolvesAll registered shifts derived
      exact ⟨past, later, faithful, registered, kept⟩

namespace Visit

variable {visit next : Visit} {fuel : Nat}

theorem Leads.sound (leads : visit.Leads next) (sound : visit.Sound) : next.Sound := by
  obtain ⟨past, fresh, faithful, registered, shifts⟩ := sound
  have onward {items : List (Scope × Expression)} {trees : List Resolved}
      {between : Progress} {scope : Scope} {expression : Expression}
      (derived : ResolvesAll visit.frame items visit.progress trees between) :
      Visit.Sound ⟨visit.frame, scope, expression, between⟩ := by
    obtain ⟨later, kept⟩ := shifts_of_resolvesAll registered shifts derived
    exact ⟨past, later, faithful, registered, kept⟩
  cases leads with
  | operand _ derived => exact onward derived
  | key _ _ _ _ derived _ => exact onward derived
  | argument _ _ _ _ derived => exact onward derived
  | body _ _ _ derived => exact onward derived
  | scriptArgument _ _ _ derived => exact onward derived
  | @parameter frame _ node before _ _ passes =>
      cases passes with
      | @intro _ _ _ _ family _ _ _ _ _ _ _ _ _ _ _ _ _ _ created _ derived _ =>
          have alike : Mirrored past (Forge.renamed past.renumber)
              (frame.resolveForge family node.position) (frame.resolveForge family node.position) :=
            Frame.mirrored_resolveForge family node.position
          have progress := (alike fresh _ shifts).progress
          rw [created] at progress
          obtain ⟨later, kept⟩ := shifts_of_resolvesAll registered progress derived
          exact ⟨past, later, faithful, registered, kept⟩
  | clause _ enters => exact enters.sound faithful registered.registry shifts.memory

theorem Sound.memory (sound : visit.Sound) :
    visit.progress.memory.Sound visit.frame.services.registry := by
  obtain ⟨past, fresh, faithful, registered, shifts⟩ := sound
  rw [registered.registry]
  exact .of_precedes faithful shifts.memory

theorem Leads.order_eq (leads : visit.Leads next) : next.frame.order = visit.frame.order := by
  cases leads with
  | clause _ enters =>
      cases enters
      rfl
  | _ => rfl

theorem Starves.of_succ (starved : visit.Starves (fuel + 1)) : visit.Starves fuel := by
  rcases resolve_refinedBy (Nat.le_succ fuel) visit.frame visit.scope visit.expression
    visit.progress with early | same
  · exact early
  · unfold Starves Resolution.Starves at starved
    rw [same] at starved
    exact starved

theorem starves_of_reaches (reaches : Relation.ReflTransGen Leads visit next)
    (starved : next.Starves fuel) : visit.Starves fuel := by
  induction reaches using Relation.ReflTransGen.head_induction_on with
  | refl => exact starved
  | head leads _ ih => exact (starves_succ_iff.mpr ⟨_, leads, ih⟩).of_succ

theorem starves_succ_of_reaches (reaches : Relation.TransGen Leads visit next)
    (starved : next.Starves fuel) : visit.Starves (fuel + 1) := by
  obtain ⟨between, leads, onward⟩ := Relation.TransGen.head'_iff.mp reaches
  exact starves_succ_iff.mpr ⟨between, leads, starves_of_reaches onward starved⟩

private theorem unfinished_iff_of_sound {services : Services} {memory : CompilerMemory}
    (sound : memory.Sound services.registry) (order : Nat → List Nat) (isSubquery : Bool)
    (statement : Statement) :
    (compileStatement (resolve .spent fuel) services order isSubquery statement .empty
        memory).1 = .error .unfinished ↔
      (compileStatement (resolve .spent fuel) services order isSubquery statement .empty
        .empty).1 = .error .unfinished := by
  rw [(Services.agrees_of_sound sound fuel order isSubquery statement).result]
  exact Checked.map_eq_error_iff

theorem Starves.of_opens {statement : Statement} {other : Visit} (starved : visit.Starves fuel)
    (opens : visit.Opens statement) (otherOpens : other.Opens statement) (sound : visit.Sound)
    (otherSound : other.Sound) (services : other.frame.services = visit.frame.services)
    (order : other.frame.order = visit.frame.order) : other.Starves fuel := by
  cases fuel with
  | zero => exact other.starves_zero
  | succ fuel =>
      have memory := sound.memory
      have otherMemory := otherSound.memory
      obtain ⟨frame, scope, expression, before⟩ := visit
      obtain ⟨otherFrame, otherScope, otherExpression, otherBefore⟩ := other
      obtain ⟨position, rfl⟩ := opens
      obtain ⟨otherPosition, rfl⟩ := otherOpens
      obtain ⟨single, unfinished⟩ := starves_resolveSubquery_iff.mp starved
      refine starves_resolveSubquery_iff.mpr ⟨single, ?_⟩
      rw [unfinished_iff_of_sound otherMemory]
      rw [unfinished_iff_of_sound memory] at unfinished
      dsimp only at services order
      rw [services, order]
      exact unfinished

private theorem kept_of_reaches (reaches : Relation.ReflTransGen Leads visit next)
    (sound : visit.Sound) : next.Sound ∧ next.frame.services = visit.frame.services ∧
      next.frame.order = visit.frame.order := by
  induction reaches with
  | refl => exact ⟨sound, rfl, rfl⟩
  | tail _ leads ih =>
      obtain ⟨soundSoFar, services, order⟩ := ih
      exact ⟨leads.sound soundSoFar, leads.services_eq.trans services, leads.order_eq.trans order⟩

/-- A subquery that is entered inside itself needs more than any fuel. -/
theorem Recurs.starves (recurs : visit.Recurs) (sound : visit.Sound) (fuel : Nat) :
    visit.Starves fuel := by
  obtain ⟨statement, again, opens, reaches, opensAgain⟩ := recurs
  obtain ⟨againSound, services, order⟩ := kept_of_reaches reaches.to_reflTransGen sound
  induction fuel with
  | zero => exact visit.starves_zero
  | succ fuel ih =>
      have inside := ih.of_opens opens opensAgain sound againSound services order
      exact starves_succ_of_reaches reaches inside

end Visit

/-- A compilation that ends gives a spec or refuses the statement. -/
def CompileOutcome.Ended (outcome : CompileOutcome) : Prop :=
  (∃ spec, outcome.result = .ok spec) ∨ ∃ failure, outcome.result = .error (.refused failure)

theorem CompileOutcome.ended_iff_ne {outcome : CompileOutcome} :
    outcome.Ended ↔ outcome.result ≠ .error .unfinished := by
  unfold Ended
  rcases outcome.result with (failure | _) | spec <;> simp

namespace Services

variable {services : Services} {order : Nat → List Nat} {statement : Statement}
  {symbols : SymbolContext} {memory : CompilerMemory} {fuel : Nat}

theorem not_ended_compileWithin_iff :
    ¬ (services.compileWithin fuel order statement symbols memory).Ended ↔
      ∃ entered, Enters services order false statement symbols memory entered ∧
        entered.Starves fuel := by
  rw [CompileOutcome.ended_iff_ne, not_not, ← unfinished_compileStatement_iff]
  unfold compileWithin compileBy
  rcases compileStatement (resolve .spent fuel) services order false statement symbols memory
    with ⟨(failure | _) | ⟨spec, gathered⟩, later⟩ <;> simp

theorem ended_of_not_recurs (calm : ¬ services.Recurs order statement symbols memory) :
    (services.compileWith order statement symbols memory).Ended := by
  by_contra unended
  rw [compileWith_eq_compileWithin, not_ended_compileWithin_iff] at unended
  obtain ⟨entered, enters, starved⟩ := unended
  refine calm (recurs_of_starves enters ?_)
  have fewer : ∀ extra, entered.Starves (services.fuelFor statement symbols + extra) →
      entered.Starves (services.fuelFor statement symbols) := by
    intro extra
    induction extra with
    | zero => exact id
    | succ extra ih => exact fun starved => ih starved.of_succ
  exact fewer advance starved

theorem not_ended_of_recurs (sound : memory.Sound services.registry)
    (recurs : services.Recurs order statement .empty memory) :
    ¬ (services.compileWithin fuel order statement .empty memory).Ended := by
  obtain ⟨entered, visit, enters, reaches, inside⟩ := recurs
  have faithful : ∀ cache, sound.past.caches cache → cache.Faithful sound.past.registry :=
    fun _ => id
  have enteredSound := enters.sound faithful rfl sound.precedes
  obtain ⟨visitSound, _, _⟩ := Visit.kept_of_reaches reaches enteredSound
  have starved := inside.starves visitSound fuel
  exact not_ended_compileWithin_iff.mpr
    ⟨entered, enters, Visit.starves_of_reaches reaches starved⟩

/-- If no globally declared expression holds a subquery, no subquery is entered inside itself:
all that a subquery leads to is then in its own text. -/
theorem not_recurs_of_plain
    (plain : ∀ entry ∈ services.declarations, entry.2.subqueries = []) :
    ¬ services.Recurs order statement symbols memory := by
  have globals {found : Services} (same : found = services) (reached : List Statement) :
      ∀ entry ∈ found.declarations, entry.2.subqueries ⊆ reached := by
    intro entry held
    rw [plain entry (same ▸ held)]
    exact List.nil_subset _
  rintro ⟨entered, visit, enters, reaches, inner, again, opens, onward, opensAgain⟩
  have visitServices : visit.frame.services = services := by
    have start : entered.frame.services = services := by
      cases enters
      rfl
    clear opens onward
    induction reaches with
    | refl => exact start
    | tail _ leads ih => exact leads.services_eq.trans ih
  obtain ⟨next, leads, rest⟩ := Relation.TransGen.head'_iff.mp onward
  have nextWithin : next.Within inner.subqueries := by
    obtain ⟨frame, scope, expression, before⟩ := visit
    obtain ⟨position, same⟩ := opens
    cases same
    cases leads with
    | operand split _ => exact absurd split (by simp [Expression.operands])
    | clause _ entersInner =>
        exact entersInner.within (List.Subset.refl _) (globals visitServices _)
          (List.forall_mem_nil _)
  have againWithin : again.Within inner.subqueries := by
    clear opensAgain onward
    induction rest with
    | refl => exact nextWithin
    | tail _ leads ih => exact leads.within inner.fits.closed ih
  obtain ⟨position, same⟩ := opensAgain
  have inside := againWithin.expression
  rw [same] at inside
  have smaller := inner.fits.smaller inner (inside List.mem_cons_self)
  have whole := inner.size_eq_inner_succ
  omega

end Services

namespace CompilerSession

/-- A compilation in a session ends, with a spec or a refusal, exactly when no subquery is entered
inside itself; and where any fuel suffices, the fuel that a compilation takes does. -/
theorem Reachable.compile_ended_iff {session : CompilerSession} (reachable : session.Reachable)
    (order : Nat → List Nat) (statement : Statement) :
    ((session.services.compile order statement session.memory).Ended ↔
      ¬ session.services.Recurs order statement .empty session.memory) ∧
    ((∃ fuel, (session.services.compileWithin fuel order statement .empty
        session.memory).Ended) ↔
      ¬ session.services.Recurs order statement .empty session.memory) := by
  have sound := reachable.sound.memory
  have ended (calm : ¬ session.services.Recurs order statement .empty session.memory) :
      (session.services.compile order statement session.memory).Ended :=
    Services.ended_of_not_recurs calm
  have within : session.services.compile order statement session.memory =
      session.services.compileWithin (session.services.fuelFor statement .empty +
        Services.advance) order statement .empty session.memory :=
    Services.compileWith_eq_compileWithin _ _ _ _ _
  constructor
  · constructor
    · intro finished recurs
      rw [within] at finished
      exact Services.not_ended_of_recurs sound recurs finished
    · exact ended
  · constructor
    · rintro ⟨fuel, finished⟩ recurs
      exact Services.not_ended_of_recurs sound recurs finished
    · intro calm
      have finished := ended calm
      rw [within] at finished
      exact ⟨_, finished⟩

def declaring (declaration : Declaration) : CompilerSession :=
  { start with services := Services.initial.declareExpression declaration }

theorem reachable_declaring (declaration : Declaration) : (declaring declaration).Reachable :=
  .step .start (.register (.declaration declaration))

def callOf (name : String) : Expression := .call ⟨none, name, false, []⟩

theorem ended_selecting_constant :
    ((declaring ⟨"f", [], .constant none .null⟩).services.compile List.range
      (.selecting "s" (.subquery none (.selecting "q" (callOf "f"))))
      (declaring ⟨"f", [], .constant none .null⟩).memory).Ended := by
  refine ((reachable_declaring _).compile_ended_iff _ _).1.mpr ?_
  refine Services.not_recurs_of_plain ?_
  intro entry held
  cases List.mem_singleton.mp held
  rfl

def selfSelecting : Declaration :=
  ⟨"f", [], .subquery none (.selecting "q" (callOf "f"))⟩

/-- No fuel suffices for a call of an expression that selects itself in a subquery, although its
declaration was accepted. -/
theorem unended_selfSelecting :
    (declaring selfSelecting).Reachable ∧
    ∀ order fuel, ¬ ((declaring selfSelecting).services.compileWithin fuel order
      (.selecting "s" (callOf "f")) .empty (declaring selfSelecting).memory).Ended := by
  refine ⟨reachable_declaring _, ?_⟩
  intro order fuel
  refine Services.not_ended_of_recurs (reachable_declaring _).sound.memory ?_
  let text (name : String) : Statement := .selecting name (callOf "f")
  let frame (isSubquery : Bool) (name : String) : Frame :=
    .ofStatement (declaring selfSelecting).services order isSubquery (text name) []
  let call (isSubquery : Bool) (name : String) (memory : CompilerMemory) : Visit :=
    ⟨frame isSubquery name, .ofClause .select, callOf "f", .opening (text name) .empty memory⟩
  let body (isSubquery : Bool) (name : String) (memory : CompilerMemory) : Visit :=
    ⟨frame isSubquery name, (Scope.ofClause .select).entering "f" selfSelecting [],
      selfSelecting.body, .opening (text name) .empty memory⟩
  have enters (isSubquery : Bool) (name : String) (memory : CompilerMemory) :
      Enters (declaring selfSelecting).services order isSubquery (text name) .empty memory
        (call isSubquery name memory) :=
    .intro rfl (List.nil_append _).symm .nil
  have expands (isSubquery : Bool) (name : String) (memory : CompilerMemory) :
      (call isSubquery name memory).Leads (body isSubquery name memory) :=
    .body rfl rfl List.not_mem_nil .nil
  have nests (isSubquery : Bool) (name : String) (memory : CompilerMemory) :
      (body isSubquery name memory).Leads (call true "q" memory) :=
    .clause rfl (enters true "q" memory)
  have opens (isSubquery : Bool) (name : String) (memory : CompilerMemory) :
      (body isSubquery name memory).Opens (text "q") :=
    ⟨none, rfl⟩
  have recurs : (body false "s" .empty).Recurs :=
    ⟨text "q", body true "q" .empty, opens false "s" .empty,
      .tail (.single (nests false "s" .empty)) (expands true "q" .empty), opens true "q" .empty⟩
  exact ⟨call false "s" .empty, body false "s" .empty, enters false "s" .empty,
    .single (expands false "s" .empty), recurs⟩

end CompilerSession

end EventQuery
