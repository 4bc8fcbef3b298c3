import EventQuery.Proofs.Protocol.Sites

set_option autoImplicit false

/-! What one forge is told. The numbers of the forges of different episodes are different, so a
forge hears of the two passes over the call sites of its own statement and of nothing else. -/

namespace EventQuery

open Resolution

def CallSites.servedBy (forge : Forge) (sites : List CallSite) : List CallSite :=
  sites.filter (fun site => site.forge.identity = forge.identity)

namespace Undertaking

variable {undertaking : Undertaking} {forge : Forge}

private theorem callbacks_map (message : CallSite → TraceEntry) (callback : CallSite → Callback)
    (goes : ∀ site, message site = .message site.forge.identity site.forge.maker (callback site))
    (sites : List CallSite) :
    forge.callbacks (sites.map message) = (CallSites.servedBy forge sites).map callback := by
  unfold Forge.callbacks CallSites.servedBy
  induction sites with
  | nil => rfl
  | cons site sites ih =>
      rw [List.map_cons, List.filterMap_cons, goes, List.filter_cons]
      by_cases own : site.forge.identity = forge.identity
      · simp only [TraceEntry.callback?, own, if_true, decide_true, List.map_cons, ih]
      · simp only [TraceEntry.callback?, own, if_false, decide_false, Bool.false_eq_true, ih]

theorem callbacks_passes (declared validated : List Nat) :
    forge.callbacks (undertaking.passes declared validated) =
      (CallSites.servedBy forge (CallSites.visited undertaking.sites declared)).map
          (fun site => .declared (site.declaration undertaking.statement.name)) ++
        (CallSites.servedBy forge (CallSites.visited undertaking.sites validated)).map
          (fun site => .validated (site.validation undertaking.statement.name
            (undertaking.streams.map StreamBinding.type) undertaking.services.registry)) := by
  have declares :=
    @callbacks_map forge (CallSite.declares undertaking.statement.name) _ (fun _ => rfl)
  have validates := @callbacks_map forge (CallSite.validates undertaking.statement.name
      (undertaking.streams.map StreamBinding.type) undertaking.services.registry) _ (fun _ => rfl)
  unfold passes
  rw [Forge.callbacks_append, declares, validates]

private theorem servedBy_foreign {visits : List Nat}
    (served : ∀ site ∈ undertaking.sites, site.forge ∈ undertaking.forges)
    (foreign : forge.identity ∉ undertaking.forges.map Forge.identity) :
    CallSites.servedBy forge (CallSites.visited undertaking.sites visits) = [] := by
  unfold CallSites.servedBy
  rw [List.filter_eq_nil_iff]
  intro site member own
  have same := of_decide_eq_true own
  apply foreign
  rw [← same]
  exact List.mem_map_of_mem (served site (CallSites.mem_of_mem_visited member))

theorem callbacks_passes_foreign {declared validated : List Nat}
    (served : ∀ site ∈ undertaking.sites, site.forge ∈ undertaking.forges)
    (foreign : forge.identity ∉ undertaking.forges.map Forge.identity) :
    forge.callbacks (undertaking.passes declared validated) = [] := by
  rw [callbacks_passes, servedBy_foreign served foreign, servedBy_foreign served foreign]
  rfl

end Undertaking

namespace Episode

variable {forge : Forge}

mutual

theorem callbacks_foreign : (episode : Episode) → episode.Sound →
    forge.identity ∉ episode.identities → forge.callbacks episode.messages = []
  | mk undertaking inner declared validated, sound, foreign => by
      rw [identities, List.mem_append, not_or] at foreign
      have own := sound.orderly.served
      cases sound with
      | intro _ each =>
          rw [messages, Forge.callbacks_append, callbacksOfAll_foreign inner each foreign.2,
            List.nil_append]
          exact Undertaking.callbacks_passes_foreign own foreign.1

theorem callbacksOfAll_foreign : (episodes : List Episode) →
    (∀ episode ∈ episodes, episode.Sound) → forge.identity ∉ identitiesOfAll episodes →
      forge.callbacks (messagesOfAll episodes) = []
  | [], _, _ => rfl
  | episode :: episodes, sound, foreign => by
      rw [identitiesOfAll, List.mem_append, not_or] at foreign
      rw [messagesOfAll, Forge.callbacks_append,
        callbacks_foreign episode (sound _ List.mem_cons_self) foreign.1,
        callbacksOfAll_foreign episodes (fun other member =>
          sound other (List.mem_cons_of_mem _ member)) foreign.2]
      rfl

end

private theorem mem_identitiesOfAll {episode : Episode} {episodes : List Episode} {identity : Nat}
    (member : episode ∈ episodes) (inside : identity ∈ episode.identities) :
    identity ∈ identitiesOfAll episodes := by
  obtain ⟨early, late, rfl⟩ := List.append_of_mem member
  rw [identitiesOfAll_append, identitiesOfAll]
  exact List.mem_append_right _ (List.mem_append_left _ inside)

theorem mem_identities_of_within {part episode : Episode} (within : part.Within episode)
    (own : forge ∈ part.undertaking.forges) : forge.identity ∈ episode.identities := by
  induction within with
  | self =>
      cases part with
      | mk undertaking inner declared validated =>
          rw [identities]
          exact List.mem_append_left _ (List.mem_map_of_mem own)
  | @inner middle episode member _ ih =>
      cases episode with
      | mk undertaking inner declared validated =>
          rw [identities]
          exact List.mem_append_right _ (mem_identitiesOfAll member ih)

/-- Of all that is told in an episode, the forges of a part are told the passes of that part. -/
theorem callbacks_within {part episode : Episode} (within : part.Within episode)
    (own : forge ∈ part.undertaking.forges) (sound : episode.Sound)
    (distinct : episode.identities.Nodup) :
    forge.callbacks episode.messages =
      forge.callbacks (part.undertaking.passes part.declared part.validated) := by
  induction within with
  | self =>
      cases part with
      | mk undertaking inner declared validated =>
          cases sound with
          | intro _ each =>
              rw [identities] at distinct
              have foreign : forge.identity ∉ identitiesOfAll inner := fun inside =>
                (List.nodup_append.mp distinct).2.2 _ (List.mem_map_of_mem own) _ inside rfl
              rw [messages, Forge.callbacks_append, callbacksOfAll_foreign inner each foreign]
              rfl
  | @inner middle episode member within ih =>
      cases episode with
      | mk undertaking inner declared validated =>
          have served := sound.orderly.served
          cases sound with
          | intro _ each =>
              rw [identities] at distinct
              obtain ⟨_, distinctInner, apart⟩ := List.nodup_append.mp distinct
              have inside := mem_identities_of_within within own
              have among := mem_identitiesOfAll member inside
              have notHere : forge.identity ∉ undertaking.forges.map Forge.identity :=
                fun here => apart _ here _ among rfl
              have silent : forge.callbacks (undertaking.passes declared validated) = [] :=
                Undertaking.callbacks_passes_foreign served notHere
              obtain ⟨early, late, split⟩ := List.append_of_mem member
              change inner = _ at split
              subst split
              rw [identitiesOfAll_append, identitiesOfAll] at distinctInner
              obtain ⟨_, distinctLate, apartEarly⟩ := List.nodup_append.mp distinctInner
              obtain ⟨distinctMiddle, _, apartLate⟩ := List.nodup_append.mp distinctLate
              have notEarly : forge.identity ∉ identitiesOfAll early := fun here =>
                apartEarly _ here _ (List.mem_append_left _ inside) rfl
              have notLate : forge.identity ∉ identitiesOfAll late := fun here =>
                apartLate _ inside _ here rfl
              have soundEarly : ∀ other ∈ early, other.Sound := fun other inEarly =>
                each other (List.mem_append_left _ inEarly)
              have soundLate : ∀ other ∈ late, other.Sound := fun other inLate =>
                each other (List.mem_append_right _ (List.mem_cons_of_mem _ inLate))
              have soundMiddle : middle.Sound := each middle member
              rw [messages, messagesOfAll_append, messagesOfAll]
              simp only [Forge.callbacks_append, callbacksOfAll_foreign early soundEarly notEarly,
                callbacksOfAll_foreign late soundLate notLate, silent, List.append_nil,
                List.nil_append]
              exact ih soundMiddle distinctMiddle

/-- All messages of the subqueries of a part come before the passes of that part. -/
theorem messages_of_within {part episode inner : Episode} (within : part.Within episode)
    (member : inner ∈ part.inner) :
    ∃ before between after, episode.messages = before ++ inner.messages ++ between ++
      part.undertaking.passes part.declared part.validated ++ after := by
  have within_all {middle : Episode} {episodes : List Episode} (inside : middle ∈ episodes) :
      ∃ before after, messagesOfAll episodes = before ++ middle.messages ++ after := by
    obtain ⟨early, late, rfl⟩ := List.append_of_mem inside
    refine ⟨messagesOfAll early, messagesOfAll late, ?_⟩
    rw [messagesOfAll_append, messagesOfAll, List.append_assoc]
  induction within with
  | self =>
      cases part with
      | mk undertaking episodes declared validated =>
          obtain ⟨before, between, told⟩ := within_all member
          refine ⟨before, between, [], ?_⟩
          have all : messagesOfAll episodes = before ++ inner.messages ++ between := told
          rw [messages, all, List.append_nil]
          rfl
  | @inner middle episode inside _ ih =>
      cases episode with
      | mk undertaking episodes declared validated =>
          obtain ⟨before, between, after, told⟩ := ih
          obtain ⟨early, late, whole⟩ := within_all inside
          refine ⟨early ++ before, between,
            after ++ late ++ undertaking.passes declared validated, ?_⟩
          have all : messagesOfAll episodes = early ++ middle.messages ++ late := whole
          rw [messages, all, told]
          simp only [List.append_assoc]

end Episode

/-- What is told while a statement is compiled, whatever the compilation ends with. The messages
are those of one episode, and every number that is given to a forge is that of one forge of one
part of the episode. In each part the call sites, which are the aggregation calls that the text
comes to, are visited in two phases (`Episode.Orderly`), both after all that is told in its
subqueries; and a forge hears of these two visits, as far as they come to the call sites that it
serves, and of nothing else. -/
theorem Services.episode_of_compile (services : Services) (order : Nat → List Nat)
    (statement : Statement) (memory : CompilerMemory) :
    ∃ (episode : Episode) (entries : List TraceEntry),
      let after := (services.compile order statement memory).memory.workshop
      episode.undertaking = services.undertaking order statement memory ∧
      after.trace = memory.workshop.trace ++ entries ∧
      entries.filter TraceEntry.isMessage = episode.messages ∧
      episode.identities.Perm (List.range' memory.workshop.nextIdentity
        (after.nextIdentity - memory.workshop.nextIdentity)) ∧
      ∀ part : Episode, part.Within episode →
        part.Orderly ∧
        (part.undertaking.Resolved → ∀ index node,
          part.undertaking.sites[index]?.map CallSite.node = some node ↔
            part.undertaking.Calls index node) ∧
        (∀ inner ∈ part.inner, ∃ before between after, episode.messages =
          before ++ inner.messages ++ between ++
            part.undertaking.passes part.declared part.validated ++ after) ∧
        ∀ forge ∈ part.undertaking.forges, forge.callbacks entries =
          (CallSites.servedBy forge
            (CallSites.visited part.undertaking.sites part.declared)).map
              (fun site => .declared (site.declaration part.undertaking.statement.name)) ++
          (CallSites.servedBy forge
            (CallSites.visited part.undertaking.sites part.validated)).map
              (fun site => .validated (site.validation part.undertaking.statement.name
                (part.undertaking.streams.map StreamBinding.type)
                part.undertaking.services.registry)) := by
  let undertaking := services.undertaking order statement memory
  obtain ⟨episode, started, sound, told⟩ :=
    @Undertaking.told undertaking (tells_visit undertaking.fuel)
  have finish : (services.compile order statement memory).memory = undertaking.outcome.2 := by
    rw [compile_eq_outcome]
    rcases undertaking.outcome with ⟨⟨_ | _⟩ | _, _⟩ <;> rfl
  obtain ⟨entries, kept, messages⟩ := told.trace
  have distinct : episode.identities.Nodup := told.created.nodup_iff.mpr List.nodup_range'
  refine ⟨episode, entries, started, ?_, messages, ?_, ?_⟩
  · rw [finish]
    exact kept
  · rw [finish]
    exact told.created
  · intro part within
    refine ⟨(sound.within within).orderly, Undertaking.site_iff, ?_, ?_⟩
    · intro inner member
      exact Episode.messages_of_within within member
    · intro forge own
      rw [← Forge.callbacks_messages, messages, Episode.callbacks_within within own sound distinct,
        Undertaking.callbacks_passes]

end EventQuery
