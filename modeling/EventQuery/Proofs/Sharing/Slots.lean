import EventQuery.Proofs.Resolution.Conclusion
import Mathlib.Data.List.Nodup

set_option autoImplicit false

/-! The slots of a statement. Slots are found or added call by call; so there is one slot for each
state key, every slot is in use, and slots are numbered in the order of their first use. -/

namespace EventQuery

/-- Calls share a state exactly if their handlers have one state key. -/
structure StatementSpec.SharesStates (spec : StatementSpec) : Prop where
  keyed : ∀ call ∈ spec.aggregations,
    ∃ state, spec.states[call.slot]? = some state ∧ state.key = call.handler.stateKey
  distinct : (spec.states.map StateSlot.key).Nodup
  together : ∀ first ∈ spec.aggregations, ∀ second ∈ spec.aggregations,
    (first.slot = second.slot ↔ first.handler.stateKey = second.handler.stateKey)
  used : ∀ slot < spec.states.length, ∃ call ∈ spec.aggregations, call.slot = slot
  /-- When a slot is first used, all slots before it are in use. -/
  numbered : ∀ early call late, spec.aggregations = early ++ call :: late →
    ∀ slot < call.slot, ∃ other ∈ early, other.slot = slot

section

variable (slots : List StateSlot) (pairs : List (CallSite × Handler))

theorem assignSlots_nodup (distinct : (slots.map StateSlot.key).Nodup) :
    ((assignSlots slots pairs).2.map StateSlot.key).Nodup := by
  fun_induction assignSlots slots pairs with
  | case1 => exact distinct
  | case2 slots site handler rest compiled slot found aggregations extended assigned ih =>
      rw [assigned] at ih
      exact ih distinct
  | case3 slots site handler rest compiled missing aggregations extended assigned ih =>
      rw [assigned] at ih
      apply ih
      rw [List.map_append, List.map_singleton]
      refine List.nodup_append.mpr ⟨distinct, List.nodup_singleton _, ?_⟩
      intro key member other isNew same
      obtain ⟨state, inside, rfl⟩ := List.mem_map.mp member
      have different := List.findIdx?_eq_none_iff.mp missing state inside
      rw [same, List.mem_singleton.mp isNew] at different
      simp at different

theorem assignSlots_used (slot : Nat) (added : slots.length ≤ slot)
    (below : slot < (assignSlots slots pairs).2.length) :
    ∃ call ∈ (assignSlots slots pairs).1, call.slot = slot := by
  fun_induction assignSlots slots pairs with
  | case1 => exact absurd below (Nat.not_lt.mpr added)
  | case2 slots site handler rest compiled found isSlot aggregations extended assigned ih =>
      rw [assigned] at ih
      obtain ⟨call, member, same⟩ := ih added below
      exact ⟨call, List.mem_cons_of_mem _ member, same⟩
  | case3 slots site handler rest compiled missing aggregations extended assigned ih =>
      rw [assigned] at ih
      rcases Nat.eq_or_lt_of_le added with rfl | later
      · exact ⟨compiled slots.length, List.mem_cons_self, rfl⟩
      · obtain ⟨call, member, same⟩ := ih (List.length_append ▸ later) below
        exact ⟨call, List.mem_cons_of_mem _ member, same⟩

theorem assignSlots_numbered :
    ∀ early call late, (assignSlots slots pairs).1 = early ++ call :: late →
      ∀ slot < call.slot, slot < slots.length ∨ ∃ other ∈ early, other.slot = slot := by
  fun_induction assignSlots slots pairs with
  | case1 => simp
  | case2 slots site handler rest compiled found isSlot aggregations extended assigned ih =>
      rw [assigned] at ih
      intro early call late place slot below
      cases early with
      | nil =>
          obtain ⟨rfl, -⟩ := List.cons.inj place
          obtain ⟨inside, -⟩ := List.findIdx?_eq_some_iff_getElem.mp isSlot
          exact .inl (Nat.lt_trans below inside)
      | cons first early =>
          rcases ih early call late (List.cons.inj place).2 slot below with old | earlier
          · exact .inl old
          · obtain ⟨other, member, same⟩ := earlier
            exact .inr ⟨other, List.mem_cons_of_mem _ member, same⟩
  | case3 slots site handler rest compiled missing aggregations extended assigned ih =>
      rw [assigned] at ih
      intro early call late place slot below
      cases early with
      | nil =>
          obtain ⟨rfl, -⟩ := List.cons.inj place
          exact .inl below
      | cons first early =>
          obtain ⟨rfl, following⟩ := List.cons.inj place
          rcases ih early call late following slot below with old | earlier
          · rw [List.length_append, List.length_singleton] at old
            rcases Nat.eq_or_lt_of_le (Nat.le_of_lt_succ old) with rfl | before
            · exact .inr ⟨compiled slots.length, List.mem_cons_self, rfl⟩
            · exact .inl before
          · obtain ⟨other, member, same⟩ := earlier
            exact .inr ⟨other, List.mem_cons_of_mem _ member, same⟩

theorem assignSlots_made :
    ∀ state ∈ (assignSlots slots pairs).2, state ∈ slots ∨
      ∃ call ∈ (assignSlots slots pairs).1,
        state = ⟨call.handler.stateKey, call.handler.seed⟩ := by
  fun_induction assignSlots slots pairs with
  | case1 slots => exact fun state member => .inl member
  | case2 slots site handler rest compiled found isSlot aggregations extended assigned ih =>
      rw [assigned] at ih
      intro state member
      rcases ih state member with old | new
      · exact .inl old
      · obtain ⟨call, inside, same⟩ := new
        exact .inr ⟨call, List.mem_cons_of_mem _ inside, same⟩
  | case3 slots site handler rest compiled missing aggregations extended assigned ih =>
      rw [assigned] at ih
      intro state member
      rcases ih state member with old | new
      · rcases List.mem_append.mp old with older | added
        · exact .inl older
        · exact .inr ⟨compiled slots.length, List.mem_cons_self, List.mem_singleton.mp added⟩
      · obtain ⟨call, inside, same⟩ := new
        exact .inr ⟨call, List.mem_cons_of_mem _ inside, same⟩

end

/-- However the handlers are, the calls of a statement share states by their state keys. -/
theorem StatementSpec.sharesStates_of_assigned {spec : StatementSpec}
    {pairs : List (CallSite × Handler)}
    (assigned : assignSlots [] pairs = (spec.aggregations, spec.states)) : spec.SharesStates := by
  have calls : (assignSlots [] pairs).1 = spec.aggregations := congrArg Prod.fst assigned
  have states : (assignSlots [] pairs).2 = spec.states := congrArg Prod.snd assigned
  have keyed := assignSlots_slot [] pairs
  have distinct := assignSlots_nodup [] pairs List.nodup_nil
  have used := fun slot => assignSlots_used [] pairs slot (Nat.zero_le slot)
  rw [calls, states] at keyed used
  rw [states] at distinct
  refine ⟨keyed, distinct, ?_, used, ?_⟩
  · intro first member second otherMember
    obtain ⟨state, found, key⟩ := keyed first member
    obtain ⟨other, otherFound, otherKey⟩ := keyed second otherMember
    constructor
    · intro same
      rw [same, otherFound] at found
      rw [← key, ← otherKey, Option.some.inj found]
    · intro same
      have keyAt : (spec.states.map StateSlot.key)[first.slot]? =
          (spec.states.map StateSlot.key)[second.slot]? := by
        rw [List.getElem?_map, List.getElem?_map, found, otherFound, Option.map_some,
          Option.map_some, key, otherKey, same]
      have inside : first.slot < (spec.states.map StateSlot.key).length := by
        rw [List.length_map]
        exact (List.getElem?_eq_some_iff.mp found).1
      exact (List.getElem?_inj inside distinct).mp keyAt
  · intro early call late place slot below
    have whole := calls.trans place
    rcases assignSlots_numbered [] pairs early call late whole slot below with none | earlier
    · cases none
    · exact earlier

end EventQuery
