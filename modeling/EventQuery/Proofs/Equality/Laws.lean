import EventQuery.Entries
import EventQuery.Proofs.Equality.Places

set_option autoImplicit false

/-! The laws of equality. Equality of values, of backing stores and of events by their content is
symmetric and transitive. It fails to be reflexive only for a NaN: a value is equal to itself
exactly when it reaches no NaN without entering an event, for an event is equal to itself whatever
it holds. Trees and schemas hold no numbers, and their equality is an equivalence. -/

namespace EventQuery

private theorem partialEquivBEq_of {Compared : Type} {equals : Compared → Compared → Bool}
    (symmetric : ∀ left right, equals left right = true → equals right left = true)
    (transitive : ∀ left middle right, equals left middle = true → equals middle right = true →
      equals left right = true) : @PartialEquivBEq Compared ⟨equals⟩ :=
  @PartialEquivBEq.mk Compared ⟨equals⟩ (symmetric _ _) (transitive _ _ _)

/-- Numbers that compare as IEEE 754 has it: a NaN equals nothing, and the two zeros are equal. -/
private theorem laws_of_comparison {Number : Type} {isNaN isZero : Number → Bool}
    {agrees : Number → Number → Bool}
    (compared : ∀ left right, agrees left right = true ↔ isNaN left = false ∧
      isNaN right = false ∧ (left = right ∨ isZero left = true ∧ isZero right = true)) :
    @PartialEquivBEq Number ⟨agrees⟩ ∧
      ∀ number, agrees number number = true ↔ isNaN number = false := by
  refine ⟨partialEquivBEq_of ?symmetric ?transitive, ?self⟩
  case symmetric =>
    intro left right agree
    rw [compared] at agree ⊢
    refine ⟨agree.2.1, agree.1, ?_⟩
    cases agree.2.2 with
    | inl same => exact .inl same.symm
    | inr zeros => exact .inr zeros.symm
  case transitive =>
    intro left middle right first second
    rw [compared] at first second ⊢
    refine ⟨first.1, second.2.1, ?_⟩
    cases first.2.2 with
    | inl same =>
        rw [same]
        exact second.2.2
    | inr zeros =>
        cases second.2.2 with
        | inl same => exact .inr ⟨zeros.1, same ▸ zeros.2⟩
        | inr others => exact .inr ⟨zeros.1, others.2⟩
  case self =>
    intro number
    simp [compared]

theorem Binary32.laws : @PartialEquivBEq Binary32 ⟨agrees⟩ ∧
    ∀ number : Binary32, number.agrees number = true ↔ number.isNaN = false :=
  laws_of_comparison (fun _ _ => agrees_iff)

theorem Binary64.laws : @PartialEquivBEq Binary64 ⟨agrees⟩ ∧
    ∀ number : Binary64, number.agrees number = true ↔ number.isNaN = false :=
  laws_of_comparison (fun _ _ => agrees_iff)

/-- Properties of values, of stores and of events. What is built from parts has its property when
the parts have theirs. -/
structure Inherited (ofValue : Value → Prop) (ofStore : Store → Prop) (ofEvent : Event → Prop) :
    Prop where
  plain : ∀ value : Value, value.event? = none → value.store? = none → ofValue value
  event : ∀ held, ofEvent held → ofValue (.event held)
  raw : ∀ store, ofStore store → ofValue (.raw store)
  store : ∀ store : Store, (∀ place value, store.at? place = some value → ofValue value) →
    ofStore store
  content : ∀ event : Event, ofStore event.store → ofEvent event

namespace Inherited

variable {ofValue : Value → Prop} {ofStore : Store → Prop} {ofEvent : Event → Prop}

mutual

theorem value (inherited : Inherited ofValue ofStore ofEvent) : (value : Value) → ofValue value
  | .event held => inherited.event held (inherited.anyEvent held)
  | .raw store => inherited.raw store (inherited.anyStore store)
  | .null => inherited.plain _ rfl rfl
  | .string _ => inherited.plain _ rfl rfl
  | .int _ => inherited.plain _ rfl rfl
  | .long _ => inherited.plain _ rfl rfl
  | .float _ => inherited.plain _ rfl rfl
  | .double _ => inherited.plain _ rfl rfl
  | .bool _ => inherited.plain _ rfl rfl
  | .bytes _ => inherited.plain _ rfl rfl
termination_by structural value => value

theorem anyStore (inherited : Inherited ofValue ofStore ofEvent) :
    (store : Store) → ofStore store
  | .map entries => inherited.store _ (by
      intro place value found
      cases place with
      | named name => exact inherited.entry entries name value found
      | numbered position => cases found)
  | .array values => inherited.store _ (by
      intro place value found
      cases place with
      | named name => cases found
      | numbered position => exact inherited.member values position value found)
  | .object _ _ _ => inherited.store _ nofun
  | .node _ => inherited.store _ nofun
  | .record _ values => inherited.store _ (by
      intro place value found
      cases place with
      | named name => cases found
      | numbered position => exact inherited.member values position value found)
termination_by structural store => store

theorem anyEvent (inherited : Inherited ofValue ofStore ofEvent) :
    (event : Event) → ofEvent event
  | ⟨identity, type, store⟩ =>
      inherited.content ⟨identity, type, store⟩ (inherited.anyStore store)
termination_by structural event => event

theorem entry (inherited : Inherited ofValue ofStore ofEvent) :
    (entries : List (String × Value)) → ∀ name value, entries.lookup name = some value →
      ofValue value
  | [], _, _, found => by cases found
  | (first, held) :: entries, name, value, found => by
      rw [List.lookup_cons] at found
      cases here : name == first with
      | true =>
          rw [here] at found
          cases found
          exact inherited.value held
      | false =>
          rw [here] at found
          exact inherited.entry entries name value found
termination_by structural entries => entries

theorem member (inherited : Inherited ofValue ofStore ofEvent) :
    (values : List Value) → ∀ (position : Nat) value, values[position]? = some value →
      ofValue value
  | [], _, _, found => by cases found
  | held :: _, 0, _, found => by
      cases found
      exact inherited.value held
  | _ :: values, position + 1, value, found => inherited.member values position value found
termination_by structural values => values

end

end Inherited

/-! ### Symmetry -/

theorem equals_event_iff {held other : Event} :
    (Value.event held).equals (.event other) = true ↔ held = other ∨ held.equals other = true := by
  simp [Value.equals, Event.identical_iff_eq]

theorem Event.equals_iff (event other : Event) :
    event.equals other = true ↔
      event.type.name = other.type.name ∧ event.store.equals other.store = true := by
  cases event
  cases other
  simp [Event.equals]

private theorem symmetric_inherited :
    Inherited
      (fun value => ∀ other : Value, value.equals other = true → other.equals value = true)
      (fun store => ∀ other : Store, store.equals other = true → other.equals store = true)
      (fun event => ∀ other : Event, event.equals other = true → other.equals event = true) where
  plain value notEvent notRaw other equal := by
    cases value with
    | event held => cases notEvent
    | raw store => cases notRaw
    | float number =>
        cases other with
        | float other => exact Binary32.laws.1.symm equal
        | _ => cases equal
    | double number =>
        cases other with
        | double other => exact Binary64.laws.1.symm equal
        | _ => cases equal
    | _ => cases other <;> simp_all [Value.equals]
  event held symmetric other equal := by
    cases other with
    | event other =>
        rw [equals_event_iff] at equal ⊢
        cases equal with
        | inl same => exact .inl same.symm
        | inr alike => exact .inr (symmetric other alike)
    | _ => cases equal
  raw store symmetric other equal := by
    cases other with
    | raw other => exact symmetric other equal
    | _ => cases equal
  store store symmetric other equal := by
    rw [Store.equals_iff] at equal ⊢
    refine ⟨equal.1.symm, fun place => ?_⟩
    have here := equal.2 place
    cases found : store.at? place with
    | none =>
        rw [found, equalAt_none_left_iff] at here
        rw [here]
        exact .none
    | some value =>
        rw [found, equalAt_some_left_iff] at here
        obtain ⟨counterpart, there, alike⟩ := here
        rw [there]
        exact .some (symmetric place value found counterpart alike)
  content event symmetric other equal := by
    rw [Event.equals_iff] at equal ⊢
    exact ⟨equal.1.symm, symmetric other.store equal.2⟩

/-! ### Transitivity -/

private theorem transitive_inherited :
    Inherited
      (fun value => ∀ middle other : Value, value.equals middle = true →
        middle.equals other = true → value.equals other = true)
      (fun store => ∀ middle other : Store, store.equals middle = true →
        middle.equals other = true → store.equals other = true)
      (fun event => ∀ middle other : Event, event.equals middle = true →
        middle.equals other = true → event.equals other = true) where
  plain value notEvent notRaw middle other first second := by
    cases value with
    | event held => cases notEvent
    | raw store => cases notRaw
    | float number =>
        cases middle with
        | float middle =>
            cases other with
            | float other => exact Binary32.laws.1.trans first second
            | _ => cases second
        | _ => cases first
    | double number =>
        cases middle with
        | double middle =>
            cases other with
            | double other => exact Binary64.laws.1.trans first second
            | _ => cases second
        | _ => cases first
    | null =>
        cases middle with
        | null => exact second
        | _ => cases first
    | _ =>
        -- what is left compares by equality, so the middle value is the first one
        cases middle <;> simp [Value.equals] at first
        rw [first]
        exact second
  event held transitive middle other first second := by
    cases middle with
    | event middle =>
        cases other with
        | event other =>
            rw [equals_event_iff] at first second ⊢
            cases first with
            | inl same =>
                rw [same]
                exact second
            | inr alike =>
                cases second with
                | inl same => exact .inr (same ▸ alike)
                | inr again => exact .inr (transitive middle other alike again)
        | _ => cases second
    | _ => cases first
  raw store transitive middle other first second := by
    cases middle with
    | raw middle =>
        cases other with
        | raw other => exact transitive middle other first second
        | _ => cases second
    | _ => cases first
  store store transitive middle other first second := by
    rw [Store.equals_iff] at first second ⊢
    refine ⟨first.1.trans second.1, fun place => ?_⟩
    have here := first.2 place
    have there := second.2 place
    cases found : store.at? place with
    | none =>
        rw [found, equalAt_none_left_iff] at here
        rw [here, equalAt_none_left_iff] at there
        rw [there]
        exact .none
    | some value =>
        rw [found, equalAt_some_left_iff] at here
        obtain ⟨between, amid, alike⟩ := here
        rw [amid, equalAt_some_left_iff] at there
        obtain ⟨last, ended, again⟩ := there
        rw [ended]
        exact .some (transitive place value found between last alike again)
  content event transitive middle other first second := by
    rw [Event.equals_iff] at first second ⊢
    exact ⟨first.1.trans second.1, transitive middle.store other.store first.2 second.2⟩

/-! ### Reflexivity -/

def Value.isNaN : Value → Bool
  | .float number => number.isNaN
  | .double number => number.isNaN
  | _ => false

/-- What a value reaches without entering an event: itself, and what the values in its store
reach. The fields of an object are not compared, so they are not reached either. -/
inductive Value.Reaches : Value → Value → Prop
  | self (value : Value) : Reaches value value
  | inside {store : Store} {place : Store.Place} {value found : Value} :
      store.at? place = some value → Reaches value found → Reaches (.raw store) found

def Store.Reaches (store : Store) (found : Value) : Prop :=
  ∃ place value, store.at? place = some value ∧ value.Reaches found

theorem Value.reaches_raw_iff {store : Store} {found : Value} :
    (Value.raw store).Reaches found ↔ found = .raw store ∨ store.Reaches found := by
  constructor
  · intro reaches
    cases reaches with
    | self => exact .inl rfl
    | inside there reaches => exact .inr ⟨_, _, there, reaches⟩
  · intro reached
    cases reached with
    | inl same =>
        rw [same]
        exact .self _
    | inr within =>
        obtain ⟨place, value, there, reaches⟩ := within
        exact .inside there reaches

theorem Value.reaches_iff_eq {value found : Value} (notRaw : value.store? = none) :
    value.Reaches found ↔ found = value := by
  constructor
  · intro reaches
    cases reaches with
    | self => rfl
    | inside => cases notRaw
  · intro same
    rw [same]
    exact .self value

private theorem reflexive_inherited :
    Inherited
      (fun value => value.equals value = true ↔
        ∀ found : Value, value.Reaches found → found.isNaN = false)
      (fun store => store.equals store = true ↔
        ∀ found : Value, store.Reaches found → found.isNaN = false)
      (fun event => event.equals event = true ↔
        ∀ found : Value, event.store.Reaches found → found.isNaN = false) where
  plain value notEvent notRaw := by
    simp only [Value.reaches_iff_eq notRaw, forall_eq]
    cases value with
    | event held => cases notEvent
    | raw store => cases notRaw
    | float number => exact Binary32.laws.2 number
    | double number => exact Binary64.laws.2 number
    | _ => simp [Value.equals, Value.isNaN]
  event held _ := by
    have itself : (Value.event held).store? = none := rfl
    simp only [Value.reaches_iff_eq itself, forall_eq, equals_event_iff, true_or, true_iff]
    rfl
  raw store reflexive := by
    simp only [Value.equals, Value.reaches_raw_iff, or_imp, forall_and, forall_eq, reflexive]
    exact (and_iff_right rfl).symm
  store store reflexive := by
    rw [Store.equals_iff]
    constructor
    · intro equal found reached
      obtain ⟨place, value, there, reaches⟩ := reached
      have here := equal.2 place
      rw [there] at here
      cases here with
      | some agrees => exact (reflexive place value there).mp agrees found reaches
    · intro free
      refine ⟨rfl, fun place => ?_⟩
      cases there : store.at? place with
      | none => exact .none
      | some value =>
          have agrees := (reflexive place value there).mpr
            (fun found reaches => free found ⟨place, value, there, reaches⟩)
          exact .some agrees
  content event reflexive := by
    rw [Event.equals_iff, reflexive]
    exact and_iff_right rfl

private theorem equivBEq_of_iff_eq {Compared : Type} {same : Compared → Compared → Bool}
    (decides : ∀ {left right}, same left right = true ↔ left = right) :
    @EquivBEq Compared ⟨same⟩ := by
  have partially : @PartialEquivBEq Compared ⟨same⟩ := by
    apply partialEquivBEq_of
    · intro left right equal
      exact decides.mpr (decides.mp equal).symm
    · intro left middle right first second
      exact decides.mpr ((decides.mp first).trans (decides.mp second))
  have fully : @ReflBEq Compared ⟨same⟩ := @ReflBEq.mk Compared ⟨same⟩ (decides.mpr rfl)
  exact @EquivBEq.mk Compared ⟨same⟩ partially fully

theorem XmlNode.same_iff_eq {node other : XmlNode} : node.same other = true ↔ node = other := by
  constructor
  · exact XmlNode.eq_of_same node other
  · intro same
    rw [same]
    exact other.same_self

/-- Equality of values, of backing stores and of events by their content is a partial equivalence,
and equality of trees and of schemas an equivalence. A value, a store or the content of an event is
equal to itself exactly when it reaches no NaN without entering an event, and an event as a value
always is. Maps whose names are distinct are equal exactly when they have equally many entries and
every entry of the one has an equal entry in the other. -/
theorem equality_is_partial :
    @PartialEquivBEq Value ⟨Value.equals⟩ ∧
      @PartialEquivBEq Store ⟨Store.equals⟩ ∧
      @PartialEquivBEq Event ⟨Event.equals⟩ ∧
      @EquivBEq XmlNode ⟨XmlNode.same⟩ ∧
      @EquivBEq RecordSchema ⟨RecordSchema.same⟩ ∧
      (∀ value : Value, value.equals value = true ↔
        ∀ found : Value, value.Reaches found → found.isNaN = false) ∧
      (∀ store : Store, store.equals store = true ↔
        ∀ found : Value, store.Reaches found → found.isNaN = false) ∧
      (∀ event : Event, event.equals event = true ↔
        ∀ found : Value, event.store.Reaches found → found.isNaN = false) ∧
      (∀ event : Event, (Value.event event).equals (.event event) = true) ∧
      ∀ entries others : List (String × Value), (entries.map Prod.fst).Nodup →
        (others.map Prod.fst).Nodup →
        ((Store.map entries).equals (.map others) = true ↔ entries.length = others.length ∧
          ∀ name value, entries.lookup name = some value →
            ∃ other, others.lookup name = some other ∧ value.equals other = true) := by
  refine ⟨partialEquivBEq_of symmetric_inherited.value transitive_inherited.value,
    partialEquivBEq_of symmetric_inherited.anyStore transitive_inherited.anyStore,
    partialEquivBEq_of symmetric_inherited.anyEvent transitive_inherited.anyEvent,
    equivBEq_of_iff_eq XmlNode.same_iff_eq, equivBEq_of_iff_eq RecordSchema.same_iff_eq,
    reflexive_inherited.value, reflexive_inherited.anyStore, reflexive_inherited.anyEvent,
    ?itself, ?counted⟩
  case itself =>
    intro event
    rw [equals_event_iff]
    exact .inl rfl
  case counted =>
    intro entries others distinct distinctThere
    exact equals_map_iff_of_nodup distinct distinctThere

/-- A reading that was not taken. -/
def untaken : Event :=
  ⟨0, .map "Reading" [.scalar "value" .double], .map [("value", .double ⟨0x7ff8000000000000⟩)]⟩

def untakenOnce : List (String × Value) := [("count", .int 1), ("last", .event untaken)]

/-- Its content is not equal to itself, and yet maps that hold it are equal. -/
theorem equality_is_partial_untaken :
    (untakenOnce.map Prod.fst).Nodup ∧ (untakenOnce.reverse.map Prod.fst).Nodup ∧
      (Store.map untakenOnce).equals (.map untakenOnce.reverse) = true ∧
      untaken.equals untaken = false := by
  obtain ⟨_, _, _, _, _, _, _, content, _, counted⟩ := equality_is_partial
  have distinct : (untakenOnce.map Prod.fst).Nodup := by decide
  have distinctThere : (untakenOnce.reverse.map Prod.fst).Nodup := by decide
  refine ⟨distinct, distinctThere, ?_, ?_⟩
  · rw [counted untakenOnce untakenOnce.reverse distinct distinctThere]
    refine ⟨rfl, fun name value found => ?_⟩
    have member := Entries.mem_of_lookup found
    simp only [untakenOnce, List.mem_cons, Prod.mk.injEq, List.not_mem_nil, or_false] at member
    rcases member with ⟨rfl, rfl⟩ | ⟨rfl, rfl⟩
    · exact ⟨.int 1, rfl, rfl⟩
    · exact ⟨.event untaken, rfl, rfl⟩
  · rw [Bool.eq_false_iff, ne_eq, content]
    intro free
    have taken := free (.double ⟨0x7ff8000000000000⟩) ⟨.named "value", _, rfl, .self _⟩
    cases taken

end EventQuery
