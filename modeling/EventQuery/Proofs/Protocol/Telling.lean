import EventQuery.Proofs.Protocol.Passes
import EventQuery.Proofs.Resolution.Local

set_option autoImplicit false

/-! What is told while expressions are resolved. A resolution, successful or not, adds the episodes
of the subqueries that it meets and the forges that it creates, and tells its own forges nothing.
The lemmas follow the constructs that resolutions are built from. -/

namespace EventQuery

open Resolution

/-- From one progress to the other the episodes of some subqueries were told, one after the other,
and nothing else was. Every number that was given to a forge since is that of a forge registered
for the statement or of one of these episodes, and every call site added is served by a registered
forge. -/
structure Progress.Advances (before after : Progress) (inner : List Episode) : Prop where
  phase : after.calls.phase = before.calls.phase
  trace : ∃ entries, after.memory.workshop.trace = before.memory.workshop.trace ++ entries ∧
    entries.filter TraceEntry.isMessage = Episode.messagesOfAll inner
  grown : before.memory.workshop.nextIdentity ≤ after.memory.workshop.nextIdentity
  created : ∃ made,
    after.symbols.registeredForges = before.symbols.registeredForges ++ made ∧
    (made.map (fun entry => entry.2.identity) ++ Episode.identitiesOfAll inner).Perm
      (List.range' before.memory.workshop.nextIdentity
        (after.memory.workshop.nextIdentity - before.memory.workshop.nextIdentity))
  served : ∃ added, after.calls.sites = before.calls.sites ++ added ∧
    ∀ site ∈ added, site.forge ∈ after.symbols.registeredForges.map Prod.snd

/-- A compilation told an episode: it left the messages of the episode in the trace, and it gave
the numbers of the forges of the episode and no others. -/
structure CompilerMemory.Advances (before after : CompilerMemory) (episode : Episode) : Prop where
  trace : ∃ entries, after.workshop.trace = before.workshop.trace ++ entries ∧
    entries.filter TraceEntry.isMessage = episode.messages
  grown : before.workshop.nextIdentity ≤ after.workshop.nextIdentity
  created : episode.identities.Perm (List.range' before.workshop.nextIdentity
    (after.workshop.nextIdentity - before.workshop.nextIdentity))

theorem Episode.messagesOfAll_append (first second : List Episode) :
    messagesOfAll (first ++ second) = messagesOfAll first ++ messagesOfAll second := by
  induction first with
  | nil => rfl
  | cons episode rest ih =>
      rw [List.cons_append, messagesOfAll, messagesOfAll, ih, List.append_assoc]

theorem Episode.identitiesOfAll_append (first second : List Episode) :
    identitiesOfAll (first ++ second) = identitiesOfAll first ++ identitiesOfAll second := by
  induction first with
  | nil => rfl
  | cons episode rest ih =>
      rw [List.cons_append, identitiesOfAll, identitiesOfAll, ih, List.append_assoc]

theorem perm_append_append {α : Type} (first second third fourth : List α) :
    ((first ++ second) ++ (third ++ fourth)).Perm ((first ++ third) ++ (second ++ fourth)) := by
  rw [List.append_assoc, List.append_assoc, ← List.append_assoc second,
    ← List.append_assoc third]
  exact (List.perm_append_comm.append_right fourth).append_left first

theorem perm_of_stages {made more inner others : List Nat} {start middle finish : Nat}
    (early : start ≤ middle) (late : middle ≤ finish)
    (first : (made ++ inner).Perm (List.range' start (middle - start)))
    (second : (more ++ others).Perm (List.range' middle (finish - middle))) :
    ((made ++ more) ++ (inner ++ others)).Perm (List.range' start (finish - start)) := by
  have joined : List.range' start (middle - start) ++ List.range' middle (finish - middle) =
      List.range' start (finish - start) := by
    have follows : middle = start + (middle - start) := by omega
    have total : finish - start = middle - start + (finish - middle) := by omega
    rw [total, ← List.range'_append_1, ← follows]
  rw [← joined]
  exact (perm_append_append made more inner others).trans (first.append second)

namespace Progress.Advances

variable {before between after : Progress} {first second : List Episode}

theorem of_quiet (calls : after.calls = before.calls)
    (forges : after.symbols.registeredForges = before.symbols.registeredForges)
    (workshop : after.memory.workshop = before.memory.workshop) : before.Advances after [] where
  phase := by rw [calls]
  trace := ⟨[], by rw [workshop, List.append_nil], rfl⟩
  grown := by rw [workshop]
  created := ⟨[], by rw [forges, List.append_nil], by rw [workshop, Nat.sub_self]; rfl⟩
  served := ⟨[], by rw [calls, List.append_nil], List.forall_mem_nil _⟩

theorem trans (early : before.Advances between first) (late : between.Advances after second) :
    before.Advances after (first ++ second) where
  phase := late.phase.trans early.phase
  trace := by
    obtain ⟨entries, told, messages⟩ := early.trace
    obtain ⟨others, toldLater, others'⟩ := late.trace
    refine ⟨entries ++ others, ?_, ?_⟩
    · rw [toldLater, told, List.append_assoc]
    · rw [List.filter_append, messages, others', Episode.messagesOfAll_append]
  grown := Nat.le_trans early.grown late.grown
  created := by
    obtain ⟨made, registered, numbers⟩ := early.created
    obtain ⟨more, registeredLater, others⟩ := late.created
    refine ⟨made ++ more, ?_, ?_⟩
    · rw [registeredLater, registered, List.append_assoc]
    · rw [List.map_append, Episode.identitiesOfAll_append]
      exact perm_of_stages early.grown late.grown numbers others
  served := by
    obtain ⟨added, sites, served⟩ := early.served
    obtain ⟨more, sitesLater, servedLater⟩ := late.served
    refine ⟨added ++ more, ?_, ?_⟩
    · rw [sitesLater, sites, List.append_assoc]
    · obtain ⟨made, registered, _⟩ := late.created
      intro site member
      rcases List.mem_append.mp member with old | new
      · rw [registered, List.map_append]
        exact List.mem_append_left _ (served site old)
      · exact servedLater site new

theorem of_told {episode : Episode} (calls : after.calls = before.calls)
    (forges : after.symbols.registeredForges = before.symbols.registeredForges)
    (told : before.memory.Advances after.memory episode) : before.Advances after [episode] where
  phase := by rw [calls]
  trace := by
    obtain ⟨entries, kept, messages⟩ := told.trace
    refine ⟨entries, kept, messages.trans ?_⟩
    rw [Episode.messagesOfAll, Episode.messagesOfAll, List.append_nil]
  grown := told.grown
  created := by
    refine ⟨[], by rw [forges, List.append_nil], ?_⟩
    rw [Episode.identitiesOfAll, Episode.identitiesOfAll, List.append_nil, List.map_nil,
      List.nil_append]
    exact told.created
  served := ⟨[], by rw [calls, List.append_nil], List.forall_mem_nil _⟩

theorem of_add {progress : Progress} {node : FunctionCall} {key : AggregationKey} {forge : Forge}
    {family : FunctionFamily} {parameters : List AggregationParameter} {index : Nat}
    {calls : CallSites} (registered : progress.symbols.forge? key = some forge)
    (added : progress.calls.add ⟨node, key, forge, family, parameters⟩ = .ok (index, calls)) :
    progress.Advances { progress with calls := calls } [] where
  phase := by
    unfold CallSites.add at added
    split at added
    · cases added
      rfl
    · cases added
  trace := ⟨[], (List.append_nil _).symm, rfl⟩
  grown := Nat.le_refl _
  created := ⟨[], (List.append_nil _).symm, by rw [Nat.sub_self]; rfl⟩
  served := by
    refine ⟨[⟨node, key, forge, family, parameters⟩], (CallSites.sites_of_add added).2, ?_⟩
    intro site member
    rw [List.mem_singleton.mp member]
    exact List.mem_map_of_mem (Entries.mem_of_lookup registered)

end Progress.Advances

namespace Resolution

variable {α β : Type} {met : Undertaking → Prop} {before : Progress}

/-- However the resolution ends, it tells the episodes of some of the subqueries that it may meet
and nothing else. -/
def Tells (met : Undertaking → Prop) (action : Resolution α) (before : Progress) : Prop :=
  ∃ inner, before.Advances (action.outcome before).2 inner ∧
    ∀ episode ∈ inner, met episode.undertaking ∧ episode.Sound

namespace Tells

theorem of_quiet {action : Resolution α} (calls : (action.outcome before).2.calls = before.calls)
    (forges : (action.outcome before).2.symbols.registeredForges =
      before.symbols.registeredForges)
    (workshop : (action.outcome before).2.memory.workshop = before.memory.workshop) :
    Tells met action before :=
  ⟨[], .of_quiet calls forges workshop, List.forall_mem_nil _⟩

theorem of_local {action : Resolution α} (apart : Local action) : Tells met action before := by
  obtain ⟨calls, forges, workshop⟩ := apart.kept before
  refine of_quiet calls ?_ workshop
  unfold SymbolContext.registeredForges
  rw [forges]

theorem pure (value : α) : Tells met (pure value) before :=
  of_quiet rfl rfl rfl

theorem refuse (error : ValidationError) (position : Option Position) :
    Tells met (refuse error position : Resolution α) before :=
  of_quiet rfl rfl rfl

theorem throw (fault : CompileFault) : Tells met (throw fault : Resolution α) before :=
  of_quiet rfl rfl rfl

theorem ofChecked (checked : Except LocatedError α) : Tells met (ofChecked checked) before := by
  cases checked with
  | ok value => exact .pure value
  | error failure => exact .throw _

theorem mono {more : Undertaking → Prop} {action : Resolution α}
    (wider : ∀ undertaking, met undertaking → more undertaking)
    (tells : Tells met action before) : Tells more action before := by
  obtain ⟨inner, advances, each⟩ := tells
  exact ⟨inner, advances, fun episode member =>
    ⟨wider _ (each episode member).1, (each episode member).2⟩⟩

theorem after {action : Resolution α} {start : Progress} {told : List Episode}
    (advances : start.Advances before told)
    (sound : ∀ episode ∈ told, met episode.undertaking ∧ episode.Sound)
    (tells : Tells met action before) :
    ∃ inner, start.Advances (action.outcome before).2 inner ∧
      ∀ episode ∈ inner, met episode.undertaking ∧ episode.Sound := by
  obtain ⟨inner, later, each⟩ := tells
  refine ⟨told ++ inner, advances.trans later, ?_⟩
  intro episode member
  rcases List.mem_append.mp member with early | late
  · exact sound episode early
  · exact each episode late

theorem bind_of_yields {action : Resolution α} {next : α → Resolution β}
    (first : Tells met action before)
    (rest : ∀ value between, Yields action before value between → Tells met (next value) between) :
    Tells met (action >>= next) before := by
  obtain ⟨inner, advances, each⟩ := first
  unfold Tells
  rw [outcome_bind]
  cases run : action.outcome before with
  | mk result between =>
      rw [run] at advances
      cases result with
      | error fault => exact ⟨inner, advances, each⟩
      | ok value => exact after advances each (rest value between run)

theorem bind {action : Resolution α} {next : α → Resolution β} (first : Tells met action before)
    (rest : ∀ value between, Tells met (next value) between) :
    Tells met (action >>= next) before :=
  first.bind_of_yields (fun value between _ => rest value between)

theorem get_bind {next : Progress → Resolution β} (rest : Tells met (next before) before) :
    Tells met (get >>= next) before :=
  rest

theorem set_told {progress : Progress} {next : PUnit → Resolution β} {told : List Episode}
    (advances : before.Advances progress told)
    (each : ∀ episode ∈ told, met episode.undertaking ∧ episode.Sound)
    (rest : Tells met (next ()) progress) : Tells met (set progress >>= next) before := by
  have whole := rest.after advances each
  exact whole

theorem set_bind {progress : Progress} {next : PUnit → Resolution β}
    (advances : before.Advances progress []) (rest : Tells met (next ()) progress) :
    Tells met (set progress >>= next) before :=
  .set_told advances (List.forall_mem_nil _) rest

theorem modifySymbols_bind {change : SymbolContext → SymbolContext} {next : Unit → Resolution β}
    (forges : ∀ symbols, (change symbols).forges = symbols.forges)
    (rest : ∀ between, Tells met (next ()) between) :
    Tells met (modifySymbols change >>= next) before := by
  have registered : (change before.symbols).registeredForges = before.symbols.registeredForges := by
    unfold SymbolContext.registeredForges
    rw [forges]
  have quiet : before.Advances { before with symbols := change before.symbols } [] :=
    .of_quiet rfl registered rfl
  have whole := (rest _).after quiet (List.forall_mem_nil _)
  exact whole

theorem mapM_of_yields {action : α → Resolution β} {items : List α}
    (each : ∀ done item rest results between, items = done ++ item :: rest →
      Yields (done.mapM action) before results between → Tells met (action item) between) :
    Tells met (items.mapM action) before := by
  induction items generalizing before with
  | nil => exact .pure []
  | cons item items ih =>
      rw [List.mapM_cons]
      have first := each [] item items [] before rfl (yields_mapM_nil_iff.mpr ⟨rfl, rfl⟩)
      refine first.bind_of_yields ?_
      intro first between run
      refine (ih ?_).bind (fun rest _ => .pure (first :: rest))
      intro done other rest results further split finished
      refine each (item :: done) other rest (first :: results) further ?_ ?_
      · rw [split, List.cons_append]
      · exact yields_mapM_cons_iff.mpr ⟨first, between, results, run, finished, rfl⟩

end Tells

end Resolution

theorem SymbolContext.registeredForges_addForge {symbols : SymbolContext} {key : AggregationKey}
    (free : symbols.forge? key = none) (forge : Forge) :
    (symbols.addForge key forge).registeredForges = symbols.registeredForges ++ [(key, forge)] := by
  have kept : symbols.registeredForges.filter (fun other => !(other.1 == key)) =
      symbols.registeredForges := by
    rw [List.filter_eq_self]
    intro entry member
    have different := List.lookup_eq_none_iff.mp free entry member
    rwa [bne_comm] at different
  have put : (symbols.addForge key forge).registeredForges =
      symbols.registeredForges.filter (fun other => !(other.1 == key)) ++ [(key, forge)] := rfl
  rw [put, kept]

theorem Services.createForge_told (services : Services) (family : FunctionFamily)
    (workshop : Workshop) :
    ∃ entries, (services.createForge family workshop).2.trace = workshop.trace ++ entries ∧
      entries.filter TraceEntry.isMessage = [] ∧
      match (services.createForge family workshop).1 with
      | .ok forge => forge.identity = workshop.nextIdentity ∧
          (services.createForge family workshop).2.nextIdentity = workshop.nextIdentity + 1
      | .error _ =>
          (services.createForge family workshop).2.nextIdentity = workshop.nextIdentity := by
  unfold Services.createForge
  cases services.factories.lookup family.factory with
  | none => exact ⟨[], (List.append_nil _).symm, rfl, rfl⟩
  | some factory =>
      refine ⟨[.creation factory.name family], ?_, rfl, ?_⟩
      · dsimp only
        unfold Workshop.create
        cases factory.create family with
        | ok behaviour => rfl
        | error failure => rfl
      · dsimp only
        unfold Workshop.create
        cases factory.create family with
        | ok behaviour => exact ⟨rfl, rfl⟩
        | error failure => rfl

theorem Frame.tells_resolveForge (frame : Frame) {met : Undertaking → Prop} {before : Progress}
    (family : FunctionFamily) (position : Option Position) :
    Tells met (frame.resolveForge family position) before := by
  unfold Frame.resolveForge
  apply Tells.get_bind
  unfold SymbolContext.resolveForge
  cases registered : before.symbols.forge? (.ofFamily family) with
  | some forge => exact .set_bind (.of_quiet rfl rfl rfl) (.pure _)
  | none =>
      obtain ⟨entries, told, silent, numbered⟩ :=
        frame.services.createForge_told family before.memory.workshop
      dsimp only
      cases created : frame.services.createForge family before.memory.workshop with
      | mk result workshop =>
          rw [created] at told numbered
          cases result with
          | ok forge =>
              obtain ⟨number, next⟩ := numbered
              refine .set_bind ?_ (.pure _)
              exact {
                phase := rfl
                trace := ⟨entries, told, silent⟩
                grown := by
                  dsimp only at next ⊢
                  omega
                created := by
                  refine ⟨[(.ofFamily family, forge)],
                    SymbolContext.registeredForges_addForge registered forge, ?_⟩
                  dsimp only at next ⊢
                  rw [next, Nat.add_sub_cancel_left]
                  simp only [List.map_cons, List.map_nil, number]
                  rfl
                served := ⟨[], (List.append_nil _).symm, List.forall_mem_nil _⟩ }
          | error failure =>
              refine .set_bind ?_ (.refuse _ _)
              exact {
                phase := rfl
                trace := ⟨entries, told, silent⟩
                grown := Nat.le_of_eq numbered.symm
                created := by
                  refine ⟨[], (List.append_nil _).symm, ?_⟩
                  dsimp only at numbered ⊢
                  rw [numbered, Nat.sub_self]
                  rfl
                served := ⟨[], (List.append_nil _).symm, List.forall_mem_nil _⟩ }

end EventQuery
