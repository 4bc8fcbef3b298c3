import EventQuery.Compile.Statement
import EventQuery.Proofs.Checked
import EventQuery.Proofs.Resolution.Runs
import Mathlib.Data.List.Perm.Subperm

set_option autoImplicit false

/-! The end of a compilation: every aggregation call gets a handler and a slot, and the symbols
that were gathered stay as they are. -/

namespace EventQuery

open Resolution

namespace CallSites

variable {calls calls' : CallSites} {workshop workshop' : Workshop} {statement : String}
variable {order : List Nat} {streams : List EventType} {registry : Registry}

theorem sites_of_add {site : CallSite} {index : Nat}
    (added : calls.add site = .ok (index, calls')) :
    index = calls.sites.length ∧ calls'.sites = calls.sites ++ [site] := by
  unfold add at added
  split at added
  · cases added
    exact ⟨rfl, rfl⟩
  · cases added

theorem sites_of_declare
    (declared : calls.declare workshop statement order = .ok (calls', workshop')) :
    calls'.sites = calls.sites := by
  unfold declare at declared
  split at declared
  · split at declared
    · cases declared
      rfl
    · cases declared
  · cases declared

theorem sites_of_validate {result : Except CallSiteError (List Handler)}
    (validated : calls.validate workshop statement order streams registry =
      (result, calls', workshop')) : calls'.sites = calls.sites := by
  unfold validate at validated
  split at validated
  · split at validated
    · split at validated
      · cases validated
        rfl
      · cases validated
        rfl
    · cases validated
      rfl
  · cases validated
    rfl

/-- An order is accepted when it visits every call exactly once. -/
theorem checkOrder_ok_iff :
    calls.checkOrder order = .ok () ↔ List.Perm order (List.range calls.sites.length) := by
  unfold checkOrder
  dsimp only
  constructor
  · intro accepted
    split at accepted
    · rename_i visits
      simp only [Bool.and_eq_true, List.all_eq_true, decide_eq_true_eq] at visits
      obtain ⟨⟨below, once⟩, count⟩ := visits
      have inside : order ⊆ List.range calls.sites.length := by
        intro index member
        exact List.mem_range.mpr (below index member)
      refine (List.subperm_of_subset once inside).perm_of_length_le ?_
      exact Nat.le_of_eq (List.length_range.trans count.symm)
    · cases accepted
  · intro visits
    rw [if_pos]
    simp only [Bool.and_eq_true, List.all_eq_true, decide_eq_true_eq]
    refine ⟨⟨?_, visits.nodup_iff.mpr List.nodup_range⟩, ?_⟩
    · intro index member
      exact List.mem_range.mp (visits.mem_iff.mp member)
    · rw [visits.length_eq, List.length_range]

theorem indices_of_validateVisits {sites : List CallSite} {handlers : List (Nat × Handler)}
    (below : ∀ index ∈ order, index < sites.length)
    (validated : validateVisits sites statement streams registry order workshop =
      (.ok handlers, workshop')) : handlers.map Prod.fst = order := by
  induction order generalizing workshop handlers with
  | nil =>
      cases validated
      rfl
  | cons index order ih =>
      obtain ⟨site, present⟩ : ∃ site, sites[index]? = some site :=
        ⟨_, List.getElem?_eq_getElem (below index List.mem_cons_self)⟩
      unfold validateVisits at validated
      rw [present] at validated
      dsimp only at validated
      split at validated
      · cases validated
      · split at validated
        · rename_i rest _ visited
          cases validated
          have others : ∀ index ∈ order, index < sites.length := fun other member =>
            below other (List.mem_cons_of_mem _ member)
          rw [List.map_cons, ih others visited]
        · cases validated

theorem found_of_validate {handlers : List Handler}
    (validated : calls.validate workshop statement order streams registry =
      (.ok handlers, calls', workshop')) :
    ∃ found, validateVisits calls.sites statement streams registry order workshop =
        (.ok found, workshop') ∧
      handlers.map some = calls.naturalOrder.map (fun index => found.lookup index) := by
  unfold validate at validated
  split at validated
  · split at validated
    · rename_i accepted
      have visits := checkOrder_ok_iff.mp accepted
      split at validated
      · rename_i found _ visited
        cases validated
        refine ⟨found, visited, ?_⟩
        have below : ∀ index ∈ order, index < calls.sites.length := fun index member =>
          List.mem_range.mp (visits.mem_iff.mp member)
        have indices := indices_of_validateVisits below visited
        have answered : ∀ index ∈ calls.naturalOrder, (found.lookup index).isSome := by
          intro index member
          have visited : index ∈ found.map Prod.fst := by
            rw [indices]
            exact visits.mem_iff.mpr member
          obtain ⟨entry, inside, same⟩ := List.mem_map.mp visited
          refine List.lookup_isSome_iff.mpr ⟨entry, inside, ?_⟩
          rw [same]
          exact beq_self_eq_true index
        rw [List.map_filterMap_some_eq_filter_map_isSome, List.filter_eq_self]
        intro answer member
        obtain ⟨index, inside, rfl⟩ := List.mem_map.mp member
        exact answered index inside
      · cases validated
    · cases validated
  · cases validated

theorem length_of_validate {handlers : List Handler}
    (validated : calls.validate workshop statement order streams registry =
      (.ok handlers, calls', workshop')) : handlers.length = calls.sites.length := by
  obtain ⟨found, _, whole⟩ := found_of_validate validated
  have lengths := congrArg List.length whole
  rwa [List.length_map, List.length_map, naturalOrder, List.length_range] at lengths

end CallSites

section

variable (slots : List StateSlot) (pairs : List (CallSite × Handler))

theorem assignSlots_calls {β : Type} (view : String → AggregationKey → Handler → β) :
    (assignSlots slots pairs).1.map (fun call => view call.function call.key call.handler) =
      pairs.map (fun pair => view pair.1.node.name pair.1.key pair.2) := by
  fun_induction assignSlots slots pairs with
  | case1 => rfl
  | case2 slots site handler rest compiled slot found aggregations extended assigned ih =>
      rw [assigned] at ih
      rw [List.map_cons, List.map_cons, ih]
  | case3 slots site handler rest compiled found aggregations extended assigned ih =>
      rw [assigned] at ih
      rw [List.map_cons, List.map_cons, ih]

theorem assignSlots_handlers :
    (assignSlots slots pairs).1.map CompiledAggregation.handler = pairs.map Prod.snd :=
  assignSlots_calls slots pairs (fun _ _ handler => handler)

theorem assignSlots_keys :
    (assignSlots slots pairs).1.map CompiledAggregation.key =
      pairs.map (fun pair => pair.1.key) :=
  assignSlots_calls slots pairs (fun _ key _ => key)

theorem assignSlots_prefix : slots <+: (assignSlots slots pairs).2 := by
  fun_induction assignSlots slots pairs with
  | case1 => exact List.prefix_refl _
  | case2 slots site handler rest compiled slot found aggregations extended assigned ih =>
      rwa [assigned] at ih
  | case3 slots site handler rest compiled found aggregations extended assigned ih =>
      rw [assigned] at ih
      exact (List.prefix_append _ _).trans ih

theorem assignSlots_slot :
    ∀ call ∈ (assignSlots slots pairs).1,
      ∃ state, (assignSlots slots pairs).2[call.slot]? = some state ∧
        state.key = call.handler.stateKey := by
  fun_induction assignSlots slots pairs with
  | case1 => simp
  | case2 slots site handler rest compiled slot found aggregations extended assigned ih =>
      have kept := assignSlots_prefix slots rest
      rw [assigned] at ih kept
      intro call member
      rcases List.mem_cons.mp member with rfl | later
      · obtain ⟨inside, matching, _⟩ := List.findIdx?_eq_some_iff_getElem.mp found
        refine ⟨slots[slot], ?_, of_decide_eq_true matching⟩
        exact (List.prefix_iff_getElem?.mp kept) slot inside
      · exact ih call later
  | case3 slots site handler rest compiled found aggregations extended assigned ih =>
      have kept := assignSlots_prefix (slots ++ [⟨handler.stateKey, handler.seed⟩]) rest
      rw [assigned] at ih kept
      intro call member
      rcases List.mem_cons.mp member with rfl | later
      · refine ⟨⟨handler.stateKey, handler.seed⟩, ?_, rfl⟩
        have inside :
            slots.length < (slots ++ [StateSlot.mk handler.stateKey handler.seed]).length := by
          simp
        rw [(List.prefix_iff_getElem?.mp kept) slots.length inside]
        simp
      · exact ih call later

end

variable {frame : Frame} {before after : Progress}

theorem yields_runAggregations_iff {handlers : List Handler} :
    Yields (runAggregations frame) before handlers after ↔
      let order := frame.order before.calls.sites.length
      ∃ calls told finished finish,
        before.calls.declare before.memory.workshop frame.statement order = .ok (calls, told) ∧
        calls.validate told frame.statement order (frame.streams.map StreamBinding.type)
          frame.services.registry = (.ok handlers, finished, finish) ∧
        after = { before with
          calls := finished, memory := { before.memory with workshop := finish } } := by
  unfold runAggregations
  rw [yields_get_bind_iff]
  dsimp only
  cases before.calls.declare before.memory.workshop frame.statement
      (frame.order before.calls.sites.length) with
  | error failure => simp [not_yields_refuse]
  | ok result =>
      obtain ⟨calls, told⟩ := result
      dsimp only
      cases validated : calls.validate told frame.statement
          (frame.order before.calls.sites.length) (frame.streams.map StreamBinding.type)
          frame.services.registry with
      | mk result rest =>
          obtain ⟨finished, finish⟩ := rest
          simp only [yields_set_bind_iff]
          cases result with
          | error failure =>
              simp only [not_yields_refuse, false_iff]
              rintro ⟨_, _, _, _, same, again, _⟩
              cases same
              cases validated.symm.trans again
          | ok found =>
              rw [yields_pure_iff]
              constructor
              · rintro ⟨rfl, rfl⟩
                exact ⟨calls, told, finished, finish, rfl, validated, rfl⟩
              · rintro ⟨_, _, _, _, same, again, rfl⟩
                cases same
                cases validated.symm.trans again
                exact ⟨rfl, rfl⟩

theorem yields_runAggregations {handlers : List Handler}
    (run : Yields (runAggregations frame) before handlers after) :
    handlers.length = before.calls.sites.length ∧ after.calls.sites = before.calls.sites ∧
      after.symbols = before.symbols ∧ after.subqueries = before.subqueries := by
  obtain ⟨calls, told, finished, finish, declared, validated, rfl⟩ :=
    yields_runAggregations_iff.mp run
  have same := CallSites.sites_of_declare declared
  refine ⟨?_, (CallSites.sites_of_validate validated).trans same, rfl, rfl⟩
  rw [CallSites.length_of_validate validated, same]

/-- A statement is concluded when its calls have got their handlers and its clauses are typed. -/
theorem yields_conclude_iff {statement : Statement} {clauses : ResolvedClauses}
    {spec : StatementSpec} :
    Yields (frame.conclude statement clauses) before spec after ↔
      ∃ handlers typed, Yields (runAggregations frame) before handlers after ∧
        clauses.typed handlers = .ok typed ∧
        spec = frame.assemble statement typed after.calls.sites handlers after.subqueries := by
  unfold Frame.conclude
  simp only [yields_bind_iff, yields_ofChecked_iff, yields_pure_iff]
  constructor
  · rintro ⟨handlers, _, passes, typed, _, ⟨filled, rfl⟩, _, _, current, rfl, rfl⟩
    cases current
    exact ⟨handlers, typed, passes, filled, rfl⟩
  · rintro ⟨handlers, typed, passes, filled, rfl⟩
    exact ⟨handlers, after, passes, typed, after, ⟨filled, rfl⟩, after, after, rfl, rfl, rfl⟩

theorem yields_conclude {statement : Statement} {clauses : ResolvedClauses} {spec : StatementSpec}
    (run : Yields (frame.conclude statement clauses) before spec after) :
    ∃ handlers typed, handlers.length = before.calls.sites.length ∧
      clauses.typed handlers = .ok typed ∧
      spec = frame.assemble statement typed before.calls.sites handlers before.subqueries ∧
      after.symbols = before.symbols := by
  obtain ⟨handlers, typed, passes, filled, rfl⟩ := yields_conclude_iff.mp run
  obtain ⟨count, sites, symbols, subqueries⟩ := yields_runAggregations passes
  rw [sites, subqueries]
  exact ⟨handlers, typed, count, filled, rfl, symbols⟩

end EventQuery
