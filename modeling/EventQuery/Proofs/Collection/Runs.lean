import EventQuery.Aggregation.State
import EventQuery.Proofs.Equality.Identity
import Mathlib.Data.List.DropRight
import Mathlib.Data.List.Perm.Basic

set_option autoImplicit false

/-! Runs of a collecting state. When only events leave that are held, an event leaves as the very
object that entered, however many others equal it, and the earliest of its entries goes. So what
entered since the last clearing is divided into what left and what is held, in the order of
arrival. -/

namespace EventQuery

namespace AggregationState

/-- What may happen to a state; events come one for each stream of the statement. -/
inductive Step where
  | enter (arriving : List Event)
  | leave (leaving : List Event)
  | clear

def after (state : AggregationState) : Step → AggregationState
  | .enter arriving => state.enter arriving
  | .leave leaving => state.leave leaving
  | .clear => state.clear

def run (state : AggregationState) (steps : List Step) : AggregationState :=
  steps.foldl after state

theorem run_concat (state : AggregationState) (steps : List Step) (step : Step) :
    state.run (steps ++ [step]) = (state.run steps).after step :=
  List.foldl_append

/-- An event that leaves a collecting state is held by it. -/
def Permits : AggregationState → Step → Prop
  | collected stream events, .leave leaving =>
      ∀ event ∈ leaving[stream]?, event ∈ events
  | _, _ => True

instance : (state : AggregationState) → (step : Step) → Decidable (state.Permits step)
  | collected stream events, .leave leaving =>
      inferInstanceAs (Decidable (∀ event ∈ leaving[stream]?, event ∈ events))
  | collected _ _, .enter _ => .isTrue trivial
  | collected _ _, .clear => .isTrue trivial
  | tally _, _ => .isTrue trivial

/-- Every event that leaves is held at that time. -/
def Orderly : AggregationState → List Step → Prop
  | _, [] => True
  | state, step :: rest => state.Permits step ∧ (state.after step).Orderly rest

instance decidableOrderly : (state : AggregationState) → (steps : List Step) →
    Decidable (state.Orderly steps)
  | _, [] => .isTrue trivial
  | state, step :: rest =>
      have := decidableOrderly (state.after step) rest
      inferInstanceAs (Decidable (state.Permits step ∧ (state.after step).Orderly rest))

theorem orderly_concat_iff {state : AggregationState} {steps : List Step} {step : Step} :
    state.Orderly (steps ++ [step]) ↔ state.Orderly steps ∧ (state.run steps).Permits step := by
  induction steps generalizing state with
  | nil => simp [Orderly, run]
  | cons first rest ih => simp [Orderly, ih, run, and_assoc]

def Step.clears : Step → Bool
  | clear => true
  | _ => false

def Step.arrival? (stream : Nat) : Step → Option Event
  | enter arriving => arriving[stream]?
  | _ => none

def Step.departure? (stream : Nat) : Step → Option Event
  | leave leaving => leaving[stream]?
  | _ => none

/-- What some steps bring, those after the last one that clears. -/
def sinceClear (bring? : Step → Option Event) (steps : List Step) : List Event :=
  (steps.rtakeWhile (fun step => !step.clears)).filterMap bring?

/-- The events of a stream that entered since the last clearing, in the order of arrival. -/
def arrivals (stream : Nat) : List Step → List Event :=
  sinceClear (Step.arrival? stream)

def departures (stream : Nat) : List Step → List Event :=
  sinceClear (Step.departure? stream)

theorem sinceClear_concat (bring? : Step → Option Event) (steps : List Step) (step : Step) :
    sinceClear bring? (steps ++ [step]) =
      if step.clears then [] else sinceClear bring? steps ++ (bring? step).toList := by
  unfold sinceClear
  rw [List.rtakeWhile_concat]
  cases step.clears with
  | true => rfl
  | false =>
      simp only [Bool.not_false, if_true, Bool.false_eq_true, if_false, List.filterMap_append]
      cases brought : bring? step <;> simp [brought]

/-- Of the events that equal it an event that is held leaves as itself, its first entry first. -/
theorem withoutEvent_of_mem {held : List Event} {event : Event} (member : event ∈ held) :
    withoutEvent held event = held.erase event := by
  have isThere : held.any (fun other => other.same event) = true :=
    List.any_eq_true.mpr ⟨event, member, event.identical_self⟩
  rw [← List.findIdx?_isSome] at isThere
  obtain ⟨index, found⟩ := Option.isSome_iff_exists.mp isThere
  unfold withoutEvent
  rw [found, List.erase_eq_eraseP', List.eraseP_eq_eraseIdx]
  simp only [← Event.same_eq_beq, found]

section

variable {stream : Nat} {held slice : List Event} {event : Event}

theorem enter_of_some (found : slice[stream]? = some event) :
    (collected stream held).enter slice = collected stream (held ++ [event]) := by
  unfold enter
  dsimp only
  rw [found]

theorem leave_of_some (found : slice[stream]? = some event) (member : event ∈ held) :
    (collected stream held).leave slice = collected stream (held.erase event) := by
  unfold leave
  dsimp only
  rw [found]
  dsimp only
  rw [withoutEvent_of_mem member]

theorem unchanged_of_none (missing : slice[stream]? = none) :
    (collected stream held).enter slice = collected stream held ∧
      (collected stream held).leave slice = collected stream held := by
  unfold enter leave
  dsimp only
  rw [missing]
  exact ⟨rfl, rfl⟩

end

structure Divides (held left entered : List Event) : Prop where
  all : (held ++ left).Perm entered
  inOrder : held.Sublist entered
  /-- If events leave in the order of their arrival, the first ones have left. -/
  oldest : left <+: entered → held = entered.drop left.length

namespace Divides

variable {held left entered : List Event}

theorem none : Divides [] [] [] where
  all := .nil
  inOrder := .slnil
  oldest _ := rfl

theorem enter (divides : Divides held left entered) (event : Event) :
    Divides (held ++ [event]) left (entered ++ [event]) where
  all := by
    rw [List.append_assoc]
    refine (List.perm_append_comm.append_left held).trans ?_
    rw [← List.append_assoc]
    exact divides.all.append_right [event]
  inOrder := divides.inOrder.append_right [event]
  oldest first := by
    have count := divides.all.length_eq
    rw [List.length_append] at count
    -- So what left is among what had entered before.
    have fewer : left.length ≤ entered.length := by omega
    have before : left <+: entered :=
      List.prefix_of_prefix_length_le first (List.prefix_append entered [event]) fewer
    rw [divides.oldest before, List.drop_append_of_le_length fewer]

theorem leave (divides : Divides held left entered) {event : Event} (member : event ∈ held) :
    Divides (held.erase event) (left ++ [event]) entered where
  all := by
    have taken : (event :: held.erase event).Perm held := (List.perm_cons_erase member).symm
    calc (held.erase event ++ (left ++ [event])).Perm (held.erase event ++ (event :: left)) :=
          (List.perm_append_singleton event left).append_left _
      _ |>.Perm (event :: held.erase event ++ left) := List.perm_middle
      _ |>.Perm (held ++ left) := taken.append_right left
      _ |>.Perm entered := divides.all
  inOrder := List.erase_sublist.trans divides.inOrder
  oldest first := by
    obtain ⟨rest, rfl⟩ := first
    have remaining : held = event :: rest := by
      have before : left <+: left ++ [event] ++ rest := ⟨[event] ++ rest, by simp⟩
      rw [divides.oldest before, List.append_assoc, List.drop_left]
      rfl
    rw [remaining, List.erase_cons_head, List.drop_left]

end Divides

/-- What entered since the last clearing is held or left, however long the run was. -/
theorem exists_divides {stream : Nat} {steps : List Step}
    (orderly : (StateSeed.collect stream).start.Orderly steps) :
    ∃ held, (StateSeed.collect stream).start.run steps = .collected stream held ∧
      Divides held (departures stream steps) (arrivals stream steps) := by
  -- The last step is taken off, since what may leave depends on all steps before.
  induction steps using List.reverseRecOn with
  | nil => exact ⟨[], rfl, .none⟩
  | append_singleton steps step ih =>
      obtain ⟨before, permitted⟩ := orderly_concat_iff.mp orderly
      obtain ⟨held, reached, divides⟩ := ih before
      rw [run_concat, reached]
      rw [reached] at permitted
      unfold arrivals departures at divides ⊢
      rw [sinceClear_concat, sinceClear_concat]
      cases step with
      | clear => exact ⟨[], rfl, .none⟩
      | enter arriving =>
          cases found : arriving[stream]? with
          | none =>
              refine ⟨held, (unchanged_of_none found).1, ?_⟩
              simpa [Step.clears, Step.arrival?, Step.departure?, found] using divides
          | some event =>
              refine ⟨_, enter_of_some found, ?_⟩
              simpa [Step.clears, Step.arrival?, Step.departure?, found] using divides.enter event
      | leave leaving =>
          cases found : leaving[stream]? with
          | none =>
              refine ⟨held, (unchanged_of_none found).2, ?_⟩
              simpa [Step.clears, Step.arrival?, Step.departure?, found] using divides
          | some event =>
              have member := permitted event found
              refine ⟨_, leave_of_some found member, ?_⟩
              simpa [Step.clears, Step.arrival?, Step.departure?, found] using divides.leave member

end AggregationState

end EventQuery
