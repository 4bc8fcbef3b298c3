import EventQuery.Proofs.Equality.Identity
import Mathlib.Data.List.Perm.Subperm

set_option autoImplicit false

/-! How values are compared, whatever they are built from. A backing store has a form, which is
compared as a whole, and values at places: under the names of a map, at the positions of an array
or of a record. Two stores are equal exactly when their forms are the same and their values are
equal place by place; so what follows for all values is shown with one kind of store. -/

namespace EventQuery

namespace Binary32

theorem agrees_iff {left right : Binary32} :
    left.agrees right = true ↔ left.isNaN = false ∧ right.isNaN = false ∧
      (left = right ∨ left.isZero = true ∧ right.isZero = true) := by
  cases left
  cases right
  simp [agrees, and_assoc]

end Binary32

namespace Binary64

theorem agrees_iff {left right : Binary64} :
    left.agrees right = true ↔ left.isNaN = false ∧ right.isNaN = false ∧
      (left = right ∨ left.isZero = true ∧ right.isZero = true) := by
  cases left
  cases right
  simp [agrees, and_assoc]

end Binary64

namespace Store

/-- What is compared of a store as a whole. An object is compared by its identity alone. -/
inductive Form where
  | map
  | array
  | object (identity : Nat)
  | tree (root : XmlNode)
  | record (schema : RecordSchema)

def form : Store → Form
  | map _ => .map
  | array _ => .array
  | object identity _ _ => .object identity
  | node root => .tree root
  | record schema _ => .record schema

/-- Where a store holds a value that is compared. -/
inductive Place where
  | named (name : String)
  | numbered (position : Nat)

/-- The value at a place. Of several entries under one name the first counts, and what an object
or a tree holds is not compared as a value. -/
def at? : Store → Place → Option Value
  | map entries, .named name => entries.lookup name
  | array values, .numbered position => values[position]?
  | record _ values, .numbered position => values[position]?
  | _, _ => none

end Store

/-- Values are equal wherever there are any, and there are some at the same places. -/
abbrev EqualAt : Option Value → Option Value → Prop :=
  Option.Rel (fun value other => value.equals other = true)

theorem equalAt_none_left_iff {other? : Option Value} : EqualAt none other? ↔ other? = none := by
  constructor
  · intro equal
    cases equal
    rfl
  · intro missing
    rw [missing]
    exact .none

theorem equalAt_some_left_iff {value : Value} {other? : Option Value} :
    EqualAt (some value) other? ↔ ∃ other, other? = some other ∧ value.equals other = true := by
  constructor
  · intro equal
    cases equal with
    | some agrees => exact ⟨_, rfl, agrees⟩
  · intro found
    obtain ⟨other, there, agrees⟩ := found
    rw [there]
    exact .some agrees

theorem equalValues_iff (values others : List Value) :
    equalValues values others = true ↔
      ∀ position : Nat, EqualAt values[position]? others[position]? := by
  induction values generalizing others with
  | nil =>
      cases others with
      | nil => simp [equalValues]
      | cons other others =>
          constructor
          · intro equal
            cases equal
          · intro each
            cases each 0
  | cons value values ih =>
      cases others with
      | nil =>
          constructor
          · intro equal
            cases equal
          · intro each
            cases each 0
      | cons other others =>
          simp only [equalValues, Bool.and_eq_true, ih]
          constructor
          · intro equal position
            cases position with
            | zero => exact .some equal.1
            | succ position => simpa using equal.2 position
          · intro each
            constructor
            · cases each 0 with
              | some agrees => exact agrees
            · intro position
              simpa using each (position + 1)

theorem length_eq_of_equalValues {values others : List Value}
    (equal : equalValues values others = true) : values.length = others.length := by
  induction values generalizing others with
  | nil =>
      cases others with
      | nil => rfl
      | cons other others => cases equal
  | cons value values ih =>
      cases others with
      | nil => cases equal
      | cons other others =>
          simp only [equalValues, Bool.and_eq_true] at equal
          rw [List.length_cons, List.length_cons, ih equal.2]

theorem mem_names_iff {entries : List (String × Value)} {name : String} :
    name ∈ entries.map Prod.fst ↔ (entries.lookup name).isSome = true := by
  simp

theorem sameNames_iff {entries others : List (String × Value)} :
    sameNames entries others = true ↔
      ∀ name, (entries.lookup name).isSome = true ↔ (others.lookup name).isSome = true := by
  simp only [sameNames, Bool.and_eq_true, List.all_eq_true, ← mem_names_iff]
  constructor
  · intro covered name
    constructor
    · intro here
      obtain ⟨entry, member, same⟩ := List.mem_map.mp here
      rw [← same]
      exact covered.1 entry member
    · intro there
      obtain ⟨other, member, same⟩ := List.mem_map.mp there
      rw [← same]
      exact covered.2 other member
  · intro alike
    constructor
    · intro entry member
      exact (alike entry.1).mp (List.mem_map_of_mem member)
    · intro other member
      exact (alike other.1).mpr (List.mem_map_of_mem member)

/-- Every entry that counts has an equal counterpart, except under the names seen before. -/
theorem entriesWithin_iff (seen : List String) (entries others : List (String × Value)) :
    entriesWithin seen entries others = true ↔
      ∀ name value, name ∉ seen → entries.lookup name = some value →
        ∃ other, others.lookup name = some other ∧ value.equals other = true := by
  induction entries generalizing seen with
  | nil => simp [entriesWithin]
  | cons entry entries ih =>
      obtain ⟨first, held⟩ := entry
      simp only [entriesWithin, Bool.and_eq_true, ih]
      constructor
      · intro within name value unseen found
        rw [List.lookup_cons] at found
        by_cases here : name = first
        · subst here
          simp only [beq_self_eq_true, Option.some.injEq] at found
          subst found
          cases there : others.lookup name with
          | none => simp [unseen, there] at within
          | some other =>
              have agrees : held.equals other = true := by simpa [unseen, there] using within.1
              exact ⟨other, rfl, agrees⟩
        · have apart : (name == first) = false := by simpa using here
          rw [apart] at found
          exact within.2 name value (by simp [here, unseen]) found
      · intro each
        constructor
        · by_cases before : first ∈ seen
          · simp [before]
          · obtain ⟨other, there, agrees⟩ := each first held before (by simp)
            simp [there, agrees]
        · intro name value unseen found
          simp only [List.mem_cons, not_or] at unseen
          have apart : (name == first) = false := by simpa using unseen.1
          apply each name value unseen.2
          rw [List.lookup_cons, apart]
          exact found

theorem equals_map_iff {entries others : List (String × Value)} :
    (Store.map entries).equals (.map others) = true ↔
      ∀ name, EqualAt (entries.lookup name) (others.lookup name) := by
  simp only [Store.equals, Bool.and_eq_true, sameNames_iff, entriesWithin_iff]
  constructor
  · intro equal name
    cases here : entries.lookup name with
    | none =>
        have alike := equal.1 name
        rw [here] at alike
        rw [equalAt_none_left_iff, ← Option.not_isSome_iff_eq_none, ← alike]
        exact Bool.false_ne_true
    | some value =>
        rw [equalAt_some_left_iff]
        exact equal.2 name value List.not_mem_nil here
  · intro each
    constructor
    · intro name
      have alike := each name
      cases here : entries.lookup name with
      | none =>
          rw [here, equalAt_none_left_iff] at alike
          rw [alike]
      | some value =>
          rw [here, equalAt_some_left_iff] at alike
          obtain ⟨other, there, _⟩ := alike
          rw [there]
          exact Iff.rfl
    · intro name value _ found
      have alike := each name
      rwa [found, equalAt_some_left_iff] at alike

/-- Maps whose names are distinct may be compared by counting: when equally many entries are there
and those of the one map have equal counterparts, no entry of the other is left over. -/
theorem equals_map_iff_of_nodup {entries others : List (String × Value)}
    (distinct : (entries.map Prod.fst).Nodup) (distinctThere : (others.map Prod.fst).Nodup) :
    (Store.map entries).equals (.map others) = true ↔ entries.length = others.length ∧
      ∀ name value, entries.lookup name = some value →
        ∃ other, others.lookup name = some other ∧ value.equals other = true := by
  rw [equals_map_iff]
  constructor
  · intro each
    constructor
    · have sameNames : (entries.map Prod.fst).Perm (others.map Prod.fst) := by
        rw [List.perm_ext_iff_of_nodup distinct distinctThere]
        intro name
        rw [mem_names_iff, mem_names_iff]
        have here := each name
        cases found : entries.lookup name with
        | none =>
            rw [found, equalAt_none_left_iff] at here
            rw [here]
        | some value =>
            rw [found, equalAt_some_left_iff] at here
            obtain ⟨other, there, _⟩ := here
            simp [there]
      simpa using sameNames.length_eq
    · intro name value found
      have here := each name
      rwa [found, equalAt_some_left_iff] at here
  · intro equal name
    have covered : entries.map Prod.fst ⊆ others.map Prod.fst := by
      intro name member
      obtain ⟨value, found⟩ := Option.isSome_iff_exists.mp (mem_names_iff.mp member)
      obtain ⟨other, there, _⟩ := equal.2 name value found
      rw [mem_names_iff, there]
      rfl
    have sameNames : (entries.map Prod.fst).Perm (others.map Prod.fst) := by
      apply (List.subperm_of_subset distinct covered).perm_of_length_le
      simp [equal.1]
    cases found : entries.lookup name with
    | none =>
        have absent : name ∉ others.map Prod.fst := by
          rw [← sameNames.mem_iff, mem_names_iff, found]
          simp
        rw [equalAt_none_left_iff, ← Option.not_isSome_iff_eq_none, ← mem_names_iff]
        exact absent
    | some value =>
        rw [equalAt_some_left_iff]
        exact equal.2 name value found

theorem Store.equals_iff (store other : Store) :
    store.equals other = true ↔
      store.form = other.form ∧ ∀ place, EqualAt (store.at? place) (other.at? place) := by
  have apart (different : store.form ≠ other.form) (unequal : store.equals other = false) :
      store.equals other = true ↔
        store.form = other.form ∧ ∀ place, EqualAt (store.at? place) (other.at? place) := by
    rw [unequal]
    simp [different]
  have named {left right : Store} (nothing : ∀ name, left.at? (.named name) = none)
      (nothingThere : ∀ name, right.at? (.named name) = none) :
      (∀ place, EqualAt (left.at? place) (right.at? place)) ↔
        ∀ position, EqualAt (left.at? (.numbered position)) (right.at? (.numbered position)) := by
    constructor
    · intro each position
      exact each (.numbered position)
    · intro each place
      cases place with
      | named name =>
          rw [nothing, nothingThere]
          exact .none
      | numbered position => exact each position
  cases store with
  | map entries =>
      cases other with
      | map others =>
          rw [equals_map_iff]
          constructor
          · intro each
            refine ⟨rfl, fun place => ?_⟩
            cases place with
            | named name => exact each name
            | numbered position => exact .none
          · intro equal name
            exact equal.2 (.named name)
      | _ => exact apart nofun rfl
  | array values =>
      cases other with
      | array others =>
          rw [named (fun _ => rfl) (fun _ => rfl)]
          simp only [Store.equals, Bool.and_eq_true, decide_eq_true_eq]
          constructor
          · intro equal
            exact ⟨rfl, (equalValues_iff values others).mp equal.2⟩
          · intro equal
            have each := (equalValues_iff values others).mpr equal.2
            exact ⟨length_eq_of_equalValues each, each⟩
      | _ => exact apart nofun rfl
  | object identity className fields =>
      cases other with
      | object otherIdentity otherClassName others =>
          simp only [Store.equals, form, at?, decide_eq_true_eq, Form.object.injEq]
          constructor
          · intro same
            exact ⟨same, fun _ => .none⟩
          · intro equal
            exact equal.1
      | _ => exact apart nofun rfl
  | node node =>
      cases other with
      | node other =>
          simp only [Store.equals, form, at?, Form.tree.injEq]
          constructor
          · intro same
            exact ⟨XmlNode.eq_of_same node other same, fun _ => .none⟩
          · intro equal
            rw [equal.1]
            exact other.same_self
      | _ => exact apart nofun rfl
  | record schema values =>
      cases other with
      | record otherSchema others =>
          rw [named (fun _ => rfl) (fun _ => rfl)]
          simp only [Store.equals, Bool.and_eq_true, RecordSchema.same_iff_eq, form,
            Form.record.injEq]
          exact and_congr_right (fun _ => equalValues_iff values others)
      | _ => exact apart nofun rfl

end EventQuery
