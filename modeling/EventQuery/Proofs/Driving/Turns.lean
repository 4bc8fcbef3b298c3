import EventQuery.Aggregation.Recording
import EventQuery.Proofs.Driving.Loops
import EventQuery.Proofs.Protocol.Passes

set_option autoImplicit false

/-! What the passes end with. An order is accepted exactly if it is a permutation of the positions
of the calls. Then every call is declared at its turn; and either every call is validated and gets
the handler that its forge answers with at its turn, or the first call whose forge refuses it is
reported and the calls after it are not asked for. -/

namespace EventQuery

/-- A pass of validations over some calls, from a workshop on. -/
structure ValidationPass where
  sites : List CallSite
  statement : String
  streams : List EventType
  registry : Registry
  workshop : Workshop

namespace ValidationPass

variable (pass : ValidationPass)

def after (visits : List Nat) : Workshop :=
  pass.workshop.told ((CallSites.visited pass.sites visits).map
    (CallSite.validates pass.statement pass.streams pass.registry))

/-- What the forge of a call answers when those at some positions were validated before. -/
def answer (done : List Nat) (site : CallSite) : Except ValidationError Handler :=
  site.forge.behaviour.validate ((pass.after done).history site.forge)
    (site.validation pass.statement pass.streams pass.registry)

/-- Each call that is visited is accepted at its turn. The handler that its forge answers with is
what is said to be given for its position. -/
def Accepts (visits : List Nat) (gives : Nat → Handler → Prop) : Prop :=
  ∀ done index rest, visits = done ++ index :: rest →
    ∃ site handler, pass.sites[index]? = some site ∧ pass.answer done site = .ok handler ∧
      gives index handler

/-- The call at a position is refused at its turn, and those visited before were accepted. -/
structure Refuses (done : List Nat) (index : Nat) (failure : ValidationError) : Prop where
  earlier : pass.Accepts done (fun _ _ => True)
  refused : ∃ site, pass.sites[index]? = some site ∧ pass.answer done site = .error failure

def next (site : CallSite) : ValidationPass :=
  { pass with workshop :=
      pass.workshop.told [site.validates pass.statement pass.streams pass.registry] }

variable {pass} {index : Nat} {site : CallSite}

theorem after_cons (found : pass.sites[index]? = some site) (visits : List Nat) :
    pass.after (index :: visits) = (pass.next site).after visits := by
  unfold after next
  dsimp only
  rw [CallSites.visited_cons_of_some visits found, Workshop.told_told]
  rfl

theorem answer_cons (found : pass.sites[index]? = some site) (done : List Nat)
    (other : CallSite) : pass.answer (index :: done) other = (pass.next site).answer done other := by
  unfold answer
  rw [after_cons found]
  rfl

theorem answer_nil (pass : ValidationPass) (site : CallSite) :
    pass.answer [] site = site.forge.behaviour.validate (pass.workshop.history site.forge)
      (site.validation pass.statement pass.streams pass.registry) := by
  have unchanged : pass.after [] = pass.workshop := Workshop.told_nil _
  unfold answer
  rw [unchanged]

theorem accepts_nil (gives : Nat → Handler → Prop) : pass.Accepts [] gives := by
  intro done index rest split
  cases done <;> cases split

theorem accepts_cons {handler : Handler} {visits : List Nat} {gives : Nat → Handler → Prop}
    (found : pass.sites[index]? = some site) (accepted : pass.answer [] site = .ok handler)
    (given : gives index handler) (rest : (pass.next site).Accepts visits gives) :
    pass.Accepts (index :: visits) gives := by
  intro done other later split
  cases done with
  | nil =>
      cases split
      exact ⟨site, handler, found, accepted, given⟩
  | cons first done =>
      cases split
      obtain ⟨there, inside⟩ := rest done other later rfl
      rw [← answer_cons found] at inside
      exact ⟨there, inside⟩

theorem Accepts.mono {visits : List Nat} {gives allows : Nat → Handler → Prop}
    (accepts : pass.Accepts visits gives)
    (weaker : ∀ index ∈ visits, ∀ handler, gives index handler → allows index handler) :
    pass.Accepts visits allows := by
  intro done index rest split
  obtain ⟨site, handler, found, answered, given⟩ := accepts done index rest split
  have member : index ∈ visits := by simp [split]
  exact ⟨site, handler, found, answered, weaker index member handler given⟩

/-- The visits end with handlers for all calls, or at the first call that is refused. -/
theorem accepted_or_refused (pass : ValidationPass) {visits : List Nat}
    (below : ∀ index ∈ visits, index < pass.sites.length) :
    (∃ found, CallSites.validateVisits pass.sites pass.statement pass.streams pass.registry visits
        pass.workshop = (.ok found, pass.after visits) ∧
      pass.Accepts visits (fun index handler => (index, handler) ∈ found)) ∨
    ∃ done index rest failure, visits = done ++ index :: rest ∧ pass.Refuses done index failure ∧
      CallSites.validateVisits pass.sites pass.statement pass.streams pass.registry visits
        pass.workshop = (.error ⟨index, failure⟩, pass.after (done ++ [index])) := by
  induction visits generalizing pass with
  | nil =>
      refine .inl ⟨[], ?_, accepts_nil _⟩
      exact congrArg (Prod.mk _) (Workshop.told_nil _).symm
  | cons index visits ih =>
      rw [List.forall_mem_cons] at below
      have found : pass.sites[index]? = some pass.sites[index] :=
        List.getElem?_eq_getElem below.1
      cases answered : pass.answer [] pass.sites[index] with
      | error failure =>
          refine .inr ⟨[], index, visits, failure, rfl, ⟨accepts_nil _, _, found, answered⟩, ?_⟩
          rw [answer_nil] at answered
          rw [CallSites.validateVisits_cons_of_error visits _ found answered, List.nil_append,
            after_cons found]
          exact congrArg (Prod.mk _) (Workshop.told_nil _).symm
      | ok handler =>
          have step := CallSites.validateVisits_cons_of_ok visits _ found
            ((answer_nil _ _).symm.trans answered)
          dsimp only at step
          rw [step]
          cases ih (pass.next pass.sites[index]) below.2 with
          | inl all =>
              obtain ⟨handlers, run, accepts⟩ := all
              dsimp only [next] at run
              refine .inl ⟨(index, handler) :: handlers, ?_, ?_⟩
              · rw [run, after_cons found]
                rfl
              · apply accepts_cons found answered List.mem_cons_self
                apply accepts.mono
                intro other _ given inside
                exact List.mem_cons_of_mem _ inside
          | inr refusal =>
              obtain ⟨done, other, rest, failure, split, refuses, run⟩ := refusal
              dsimp only [next] at run
              refine .inr ⟨index :: done, other, rest, failure, ?_, ⟨?_, ?_⟩, ?_⟩
              · rw [split, List.cons_append]
              · exact accepts_cons found answered trivial refuses.earlier
              · obtain ⟨site, there, refused⟩ := refuses.refused
                rw [← answer_cons found] at refused
                exact ⟨site, there, refused⟩
              · rw [run, List.cons_append, after_cons found]
                rfl

/-- What a pass ends with, and the calls and the workshop that it leaves. -/
inductive Ends (calls : CallSites) (order : List Nat) :
    Except CallSiteError (List Handler) × CallSites × Workshop → Prop
  | accepted {handlers : List Handler} :
      handlers.length = calls.sites.length →
      pass.Accepts order (fun index handler => handlers[index]? = some handler) →
      Ends calls order (.ok handlers, { calls with phase := .validated }, pass.after order)
  | refused {done : List Nat} {index : Nat} {rest : List Nat} {failure : ValidationError} :
      order = done ++ index :: rest → pass.Refuses done index failure →
      Ends calls order (.error ⟨index, failure⟩, calls, pass.after (done ++ [index]))

end ValidationPass

namespace CallSites

variable {calls : CallSites} {order : List Nat}

def pass (calls : CallSites) (workshop : Workshop) (statement : String)
    (streams : List EventType) (registry : Registry) : ValidationPass :=
  ⟨calls.sites, statement, streams, registry, workshop⟩

theorem ends_of_perm (workshop : Workshop) (statement : String) (streams : List EventType)
    (registry : Registry) (declared : calls.phase = .declared)
    (once : order.Perm (List.range calls.sites.length)) :
    (calls.pass workshop statement streams registry).Ends calls order
      (calls.validate workshop statement order streams registry) := by
  have below : ∀ index ∈ order, index < calls.sites.length := fun index member =>
    List.mem_range.mp (once.mem_iff.mp member)
  have validated := @validate_of_perm statement streams registry calls order workshop declared once
  cases (calls.pass workshop statement streams registry).accepted_or_refused below with
  | inl all =>
      obtain ⟨found, run, accepts⟩ := all
      dsimp only [pass] at run
      rw [run] at validated
      rw [validated]
      apply ValidationPass.Ends.accepted
      · exact length_of_validate validated
      · have places := indices_of_validateVisits below run
        have distinct : (found.map Prod.fst).Nodup := by
          rw [places]
          exact once.nodup_iff.mpr List.nodup_range
        apply accepts.mono
        intro index member handler inside
        obtain ⟨_, again, whole⟩ := found_of_validate validated
        cases run.symm.trans again
        have answered := congrArg (fun answers => answers[index]?) whole
        simp only [List.getElem?_map, naturalOrder, List.getElem?_range (below index member),
          Option.map_some, Entries.lookup_of_mem distinct inside] at answered
        obtain ⟨given, here, same⟩ := Option.map_eq_some_iff.mp answered
        cases same
        exact here
  | inr refusal =>
      obtain ⟨done, index, rest, failure, split, refuses, run⟩ := refusal
      dsimp only [pass] at run
      rw [run] at validated
      rw [validated]
      exact .refused split refuses

/-- Both passes, as loops over tables, are driven by exactly the permutations of the positions of
the calls. No loop looks beyond its table. Another list asks no forge for anything, and leaves the
calls and their phase as they were. With a permutation every call is declared once; and the
validations give one handler for each call, which is what the forge of that call answers with at
its turn, or they end at the first call that is refused. -/
theorem driven_exactly (calls : CallSites) (workshop : Workshop) (statement : String)
    (order : List Nat) (streams : List EventType) (registry : Registry) :
    let once := order.Perm (List.range calls.sites.length)
    let refusal := ValidationError.notAllowed (.notPermutation order calls.sites.length)
    let declaration := calls.declareInPlace workshop statement order
    let validation := calls.validateInPlace workshop statement order streams registry
    (calls.checkByMarks order = .ok () ↔ once) ∧
    (declaration = some (match calls.declare workshop statement order with
      | .ok (after, workshop) => (.ok (), after, workshop)
      | .error failure => (.error failure, calls, workshop))) ∧
    validation = some (calls.validate workshop statement order streams registry) ∧
    (calls.phase = .collecting →
      (once → (visited calls.sites order).Perm calls.sites ∧
        declaration = some (.ok (), { calls with phase := .declared },
          workshop.told ((visited calls.sites order).map (CallSite.declares statement)))) ∧
      (¬ once → declaration = some (.error refusal, calls, workshop))) ∧
    (calls.phase = .declared →
      (once → ∃ ending, validation = some ending ∧
        (calls.pass workshop statement streams registry).Ends calls order ending) ∧
      (¬ once → validation = some (.error ⟨0, refusal⟩, calls, workshop))) := by
  dsimp only
  refine ⟨?_, declareInPlace_eq workshop statement,
    validateInPlace_eq workshop statement streams registry, ?_, ?_⟩
  · rw [checkByMarks_eq]
    exact checkOrder_ok_iff
  · intro collecting
    constructor
    · intro once
      refine ⟨visited_perm once, ?_⟩
      rw [declareInPlace_eq, declare_of_perm collecting once]
    · intro twice
      rw [declareInPlace_eq, declare_of_not_perm collecting twice]
  · intro declared
    constructor
    · intro once
      exact ⟨_, validateInPlace_eq workshop statement streams registry,
        ends_of_perm workshop statement streams registry declared once⟩
    · intro twice
      rw [validateInPlace_eq, validate_of_not_perm declared twice]

/-- A call of a forge that has a state for each of its functions and refuses `least`. -/
def recordedCall (function : String) : CallSite :=
  let family : FunctionFamily := ⟨["count", "total", "least"], Recording.factoryName,
    [("stateKey", .text "perFunction"), ("reject", .text "least")]⟩
  ⟨⟨none, function, false, []⟩, .ofFamily family,
    ⟨0, Recording.factoryName, ⟨fun _ validation => Recording.validate validation⟩⟩, family, []⟩

/-- Visited in reverse, two calls are declared, and each gets its own handler. -/
theorem driven_lastFirst :
    let sites := [recordedCall "count", recordedCall "total"]
    let run := (CallSites.mk sites .declared).validateInPlace .empty "s" [1, 0] [] .empty
    (CallSites.mk sites .collecting).declareInPlace .empty "s" [1, 0] =
      some (.ok (), ⟨sites, .declared⟩, Workshop.empty.told
        ((visited sites [1, 0]).map (CallSite.declares "s"))) ∧
    (∃ ending, run = some ending ∧ ((CallSites.mk sites .declared).pass .empty "s" [] .empty).Ends
      ⟨sites, .declared⟩ [1, 0] ending) ∧
    run.map (fun ending => ending.1.toOption.map (fun handlers =>
      handlers.map (fun handler => handler.stateKey.discriminator))) =
        some (some ["count", "total"]) := by
  intro sites run
  have once : [1, 0].Perm (List.range sites.length) := by decide
  have collecting := driven_exactly ⟨sites, .collecting⟩ .empty "s" [1, 0] [] .empty
  have declared := driven_exactly ⟨sites, .declared⟩ .empty "s" [1, 0] [] .empty
  exact ⟨((collecting.2.2.2.1 rfl).1 once).2, (declared.2.2.2.2 rfl).1 once, by decide +kernel⟩

example : ((CallSites.mk [recordedCall "count", recordedCall "least", recordedCall "total"]
    .declared).validateInPlace .empty "s" [2, 1, 0] [] .empty).map (fun ending =>
      (match ending.1 with
        | .ok _ => none
        | .error failure => some failure.site, ending.2.2.trace.length)) = some (some 1, 2) := by
  decide +kernel

end CallSites

end EventQuery
