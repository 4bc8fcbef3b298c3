import EventQuery.Proofs.Order.Answers
import EventQuery.Proofs.Resolution.Carrying
import EventQuery.Proofs.Streams.Lookups

set_option autoImplicit false

/-! The states of collecting calls among streams in another order. Calls over one stream share a
state before and after, so the slots stay as they are and only the streams of their states get
other numbers. -/

namespace EventQuery

open Resolution

variable {renumber : Nat → Nat}

/-- The forge answers as those of the collecting family do. -/
def ForgeBehaviour.Collects (behaviour : ForgeBehaviour) : Prop :=
  ∃ family, Collect.factory.create family = .ok behaviour

/-- The handler reads the events that are collected for one stream. -/
def Handler.Collecting (handler : Handler) : Prop :=
  ∃ stream, handler.seed = .collect stream ∧ handler.stateKey = Collect.stateKey stream

def StateSlot.Collecting (slot : StateSlot) : Prop :=
  ∃ stream, slot.seed = .collect stream ∧ slot.key = Collect.stateKey stream

namespace ForgeBehaviour.Collects

variable {behaviour : ForgeBehaviour} (collects : behaviour.Collects)

include collects

theorem validate_eq (history : List Callback) (validation : CallValidation) :
    behaviour.validate history validation = Collect.validate validation := by
  obtain ⟨family, created⟩ := collects
  cases created
  rfl

theorem steady : behaviour.Steady := by
  intro history other validation
  rw [collects.validate_eq, collects.validate_eq]

end ForgeBehaviour.Collects

namespace Collect

theorem stateKey_injective : Function.Injective stateKey := by
  intro stream other same
  have texts : "stream-" ++ stream.repr = "stream-" ++ other.repr :=
    congrArg StateKey.discriminator same
  have digits := congrArg String.toList texts
  rw [String.toList_append, String.toList_append, Nat.toList_repr, Nat.toList_repr] at digits
  have values := congrArg (fun digits => Nat.ofDigitChars 10 digits 0)
    (List.append_cancel_left digits)
  simpa only [Nat.ofDigitChars_ten_toDigits] using values

theorem collecting_of_validate {validation : CallValidation} {handler : Handler}
    (accepted : validate validation = .ok handler) : handler.Collecting := by
  unfold validate at accepted
  split at accepted
  · cases accepted
  · split at accepted
    · dsimp only at accepted
      generalize edgeOf? (lowerCase validation.function) = edge? at accepted
      split at accepted
      · cases accepted
      · rename_i index _ edge _
        cases accepted
        cases edge <;> exact ⟨index, rfl, rfl⟩
      · rename_i index _ _ edge _
        cases accepted
        cases edge <;> exact ⟨index, rfl, rfl⟩
      · cases accepted
    · cases accepted

theorem validate_restreamed {validation moved : CallValidation}
    (distinct : moved.distinct = validation.distinct)
    (function : moved.function = validation.function)
    (resolved : moved.resolved =
      validation.resolved.map (AggregationParameter.restreamed renumber)) :
    validate moved = (validate validation).map (Handler.restreamed renumber) := by
  unfold validate CallValidation.reject
  rw [distinct, function, resolved]
  split
  · rfl
  · match validation.resolved with
    | [] => rfl
    | _ :: _ :: _ =>
        simp only [List.map_cons, List.length_cons, List.length_map]
        rfl
    | [parameter] =>
        dsimp only [List.map_cons, List.map_nil]
        cases parameter with
        | value type => rfl
        | stream index type =>
            cases edgeOf? (lowerCase validation.function) with
            | none => rfl
            | some edge => cases edge <;> rfl
        | property index path compiled =>
            cases edgeOf? (lowerCase validation.function) with
            | none => rfl
            | some edge => cases edge <;> rfl

end Collect

section

variable (injective : Function.Injective renumber)

include injective

theorem StateKey.restreamed_eq_iff {slot : StateSlot} {handler : Handler}
    (collected : slot.Collecting) (collecting : handler.Collecting) :
    (slot.restreamed renumber).key = (handler.restreamed renumber).stateKey ↔
      slot.key = handler.stateKey := by
  obtain ⟨stream, seed, key⟩ := collected
  obtain ⟨other, otherSeed, otherKey⟩ := collecting
  have moved : (slot.restreamed renumber).key = Collect.stateKey (renumber stream) := by
    unfold StateSlot.restreamed
    rw [seed]
    rfl
  have otherMoved : (handler.restreamed renumber).stateKey = Collect.stateKey (renumber other) := by
    unfold Handler.restreamed
    rw [otherSeed]
    rfl
  rw [moved, otherMoved, key, otherKey]
  constructor
  · intro same
    rw [injective (Collect.stateKey_injective same)]
  · intro same
    rw [Collect.stateKey_injective same]

theorem findIdx?_restreamed {slots : List StateSlot} {handler : Handler}
    (collected : ∀ slot ∈ slots, slot.Collecting) (collecting : handler.Collecting) :
    (slots.map (StateSlot.restreamed renumber)).findIdx?
        (fun slot => slot.key = (handler.restreamed renumber).stateKey) =
      slots.findIdx? (fun slot => slot.key = handler.stateKey) := by
  induction slots with
  | nil => rfl
  | cons slot slots ih =>
      have rest := ih (fun other member => collected other (List.mem_cons_of_mem _ member))
      have same := StateKey.restreamed_eq_iff injective (collected slot List.mem_cons_self)
        collecting
      simp only [List.map_cons, List.findIdx?_cons, rest, same]

/-- The calls take the slots they took, and the slots the same states but for the numbers of the
streams. -/
theorem assignSlots_restreamed {pairs : List (CallSite × Handler)} {slots : List StateSlot}
    (collected : ∀ slot ∈ slots, slot.Collecting)
    (collecting : ∀ pair ∈ pairs, pair.2.Collecting) :
    assignSlots (slots.map (StateSlot.restreamed renumber))
        (pairs.map (Prod.map (CallSite.restreamed renumber) (Handler.restreamed renumber))) =
      ((assignSlots slots pairs).1.map (CompiledAggregation.restreamed renumber),
        (assignSlots slots pairs).2.map (StateSlot.restreamed renumber)) := by
  induction pairs generalizing slots with
  | nil => rfl
  | cons pair pairs ih =>
      obtain ⟨site, handler⟩ := pair
      have own : handler.Collecting := collecting (site, handler) List.mem_cons_self
      have others : ∀ pair ∈ pairs, pair.2.Collecting := fun pair member =>
        collecting pair (List.mem_cons_of_mem _ member)
      rw [List.map_cons, Prod.map_apply, assignSlots, assignSlots,
        findIdx?_restreamed injective collected own]
      cases slots.findIdx? (fun slot => slot.key = handler.stateKey) with
      | some slot =>
          dsimp only
          rw [ih collected others]
          rfl
      | none =>
          have extended : ∀ slot ∈ slots ++ [StateSlot.mk handler.stateKey handler.seed],
              slot.Collecting := by
            intro slot member
            rcases List.mem_append.mp member with earlier | last
            · exact collected slot earlier
            · obtain ⟨stream, seed, key⟩ := own
              rw [List.mem_singleton.mp last]
              exact ⟨stream, seed, key⟩
          have following := ih extended others
          rw [List.map_append] at following
          have added : (slots.map (StateSlot.restreamed renumber)) ++
              [⟨(handler.restreamed renumber).stateKey, (handler.restreamed renumber).seed⟩] =
              slots.map (StateSlot.restreamed renumber) ++
                [StateSlot.mk handler.stateKey handler.seed].map (StateSlot.restreamed renumber) :=
            rfl
          dsimp only
          rw [added, following, List.length_map]
          rfl

end

def CallSites.Collected (calls : CallSites) : Prop :=
  ∀ site ∈ calls.sites, site.forge.behaviour.Collects

section

variable {frame : Frame} {streams : List StreamBinding} {before after : Progress}

theorem CallSites.Collected.steady {calls : CallSites} (collected : calls.Collected)
    (collecting : calls.phase = .collecting) : calls.Steady :=
  ⟨collecting, fun site member => (collected site member).steady⟩

theorem CallSites.collected_restreamed_iff {calls : CallSites} :
    (calls.restreamed renumber).Collected ↔ calls.Collected := by
  constructor
  · intro collected site member
    exact collected (site.restreamed renumber) (List.mem_map_of_mem member)
  · intro collected site member
    obtain ⟨original, among, rfl⟩ := List.mem_map.mp member
    exact collected original among

theorem answer_restreamed {site : CallSite} (collects : site.forge.behaviour.Collects) :
    (frame.restreamed streams).answer (site.restreamed renumber) =
      (frame.answer site).map (Handler.restreamed renumber) := by
  unfold Frame.answer CallSite.answer
  have same : (site.restreamed renumber).forge = site.forge := rfl
  rw [same, collects.validate_eq, collects.validate_eq]
  exact Collect.validate_restreamed rfl rfl rfl

theorem accepted_restreamed {sites : List CallSite} {handlers : List Handler}
    (collected : ∀ site ∈ sites, site.forge.behaviour.Collects)
    (accepted : sites.map frame.answer = handlers.map .ok) :
    (sites.map (CallSite.restreamed renumber)).map (frame.restreamed streams).answer =
        (handlers.map (Handler.restreamed renumber)).map .ok ∧
      ∀ handler ∈ handlers, handler.Collecting := by
  constructor
  · have each : (sites.map (CallSite.restreamed renumber)).map (frame.restreamed streams).answer =
        (sites.map frame.answer).map (Except.map (Handler.restreamed renumber)) := by
      rw [List.map_map, List.map_map]
      refine List.map_congr_left ?_
      intro site member
      exact answer_restreamed (collected site member)
    rw [each, accepted, List.map_map, List.map_map]
    rfl
  · intro handler member
    have answered : Except.ok handler ∈ sites.map frame.answer := by
      rw [accepted]
      exact List.mem_map_of_mem member
    obtain ⟨site, among, answer⟩ := List.mem_map.mp answered
    unfold Frame.answer CallSite.answer at answer
    rw [(collected site among).validate_eq] at answer
    exact Collect.collecting_of_validate answer

theorem runAggregations_restreamed (collected : before.calls.Collected) {handlers : List Handler}
    (run : Yields (runAggregations frame) before handlers after) {moved : Progress}
    (calls : moved.calls = before.calls.restreamed renumber) :
    ∃ phase entries,
      Yields (runAggregations (frame.restreamed streams)) moved
        (handlers.map (Handler.restreamed renumber)) { moved with
          calls := { moved.calls with phase := phase }
          memory := { moved.memory with workshop := moved.memory.workshop.told entries } } := by
  have collecting := collecting_of_yields_runAggregations run
  have once := perm_of_yields_runAggregations run
  obtain ⟨accepted, _⟩ := accepted_of_yields_runAggregations (collected.steady collecting) run
  have steady : moved.calls.Steady := by
    rw [calls]
    exact (CallSites.collected_restreamed_iff.mpr collected).steady collecting
  have count : moved.calls.sites.length = before.calls.sites.length := by
    rw [calls]
    exact List.length_map _
  refine yields_runAggregations_of_accepted steady ?_ ?_
  · rw [count]
    exact once
  · rw [calls]
    exact (accepted_restreamed collected accepted).1

theorem conclude_restreamed (injective : Function.Injective renumber)
    (collected : before.calls.Collected) {statement : Statement} {clauses : ResolvedClauses}
    {spec : StatementSpec} (run : Yields (frame.conclude statement clauses) before spec after)
    {moved : Progress} (calls : moved.calls = before.calls.restreamed renumber)
    (subqueries : moved.subqueries = before.subqueries) :
    ∃ movedAfter, Yields ((frame.restreamed streams).conclude statement
        (clauses.restreamed renumber)) moved (spec.restreamed renumber streams) movedAfter ∧
      movedAfter.symbols = moved.symbols := by
  obtain ⟨handlers, typed, aggregated, filled, rfl⟩ := yields_conclude_iff.mp run
  obtain ⟨accepted, _, _, rfl⟩ := accepted_of_yields_runAggregations
    (collected.steady (collecting_of_yields_runAggregations aggregated)) aggregated
  obtain ⟨phase, entries, found⟩ :=
    @runAggregations_restreamed _ _ streams _ _ collected _ aggregated _ calls
  refine ⟨{ moved with
    calls := { moved.calls with phase := phase }
    memory := { moved.memory with workshop := moved.memory.workshop.told entries } }, ?_, rfl⟩
  have typedAgain := ResolvedClauses.typed_restreamed renumber filled
  refine yields_conclude_iff.mpr ⟨_, _, found, typedAgain, ?_⟩
  have collecting : ∀ pair ∈ before.calls.sites.zip handlers, pair.2.Collecting := by
    intro pair member
    exact (@accepted_restreamed renumber _ streams _ _ collected accepted).2 pair.2
      (List.of_mem_zip member).2
  have assigned := assignSlots_restreamed injective (List.forall_mem_nil _) collecting
  have pairs : (moved.calls.sites.zip (handlers.map (Handler.restreamed renumber))) =
      (before.calls.sites.zip handlers).map
        (Prod.map (CallSite.restreamed renumber) (Handler.restreamed renumber)) := by
    rw [calls]
    exact List.zip_map ..
  unfold Frame.assemble
  dsimp only
  rw [pairs, subqueries]
  rw [List.map_nil] at assigned
  rw [assigned]
  rfl

end

end EventQuery
