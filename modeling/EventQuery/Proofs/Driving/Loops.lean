import EventQuery.Proofs.Resolution.Conclusion
import Mathlib.Data.List.Basic

set_option autoImplicit false

/-! The passes over the aggregation calls of a statement as loops over tables. An order is checked
by marking the positions that it comes to, and handlers are put into slots in the order of the
visits, to be read off in the order of the calls. A loop has no result when it looks beyond a
table. The loops never do, and end as the passes do: an order that leaves no position unmarked
marks none twice. -/

namespace EventQuery.CallSites

/-- The marks after some positions were visited. A position that has no mark, or that is marked
already, ends the visits. -/
def mark? : List Bool → List Nat → Option (List Bool)
  | marks, [] => some marks
  | marks, index :: rest =>
      match marks[index]? with
      | some false => mark? (marks.set index true) rest
      | _ => none

/-- The check of an order with one mark for each call. -/
def checkByMarks (calls : CallSites) (order : List Nat) : Except ValidationError Unit :=
  let count := calls.sites.length
  match mark? (List.replicate count false) order with
  | none => .error (.notAllowed (.notPermutation order count))
  | some _ =>
      if order.length = count then .ok () else .error (.notAllowed (.notPermutation order count))

/-- Each position may be visited that is not marked, and none twice. -/
theorem mark?_isSome_iff (marks : List Bool) (order : List Nat) :
    (mark? marks order).isSome = true ↔
      order.Nodup ∧ ∀ index ∈ order, marks[index]? = some false := by
  induction order generalizing marks with
  | nil => simp [mark?]
  | cons index order ih =>
      have elsewhere (other : Nat) (different : index ≠ other) :
          (marks.set index true)[other]? = marks[other]? := List.getElem?_set_ne different
      rw [List.nodup_cons, List.forall_mem_cons]
      cases here : marks[index]? with
      | none => simp [mark?, here]
      | some marked =>
          cases marked with
          | true => simp [mark?, here]
          | false =>
              have below := (List.getElem?_eq_some_iff.mp here).1
              have markedNow : (marks.set index true)[index]? = some true :=
                List.getElem?_set_self below
              simp only [mark?, here, ih, true_and]
              constructor
              · intro free
                have fresh : index ∉ order := by
                  intro again
                  have unmarked := free.2 index again
                  rw [markedNow] at unmarked
                  cases unmarked
                refine ⟨⟨fresh, free.1⟩, fun other member => ?_⟩
                rw [← elsewhere other (fun same => fresh (same ▸ member))]
                exact free.2 other member
              · intro once
                refine ⟨once.1.2, fun other member => ?_⟩
                rw [elsewhere other (fun same => once.1.1 (same ▸ member))]
                exact once.2 other member

theorem checkByMarks_eq (calls : CallSites) (order : List Nat) :
    calls.checkByMarks order = calls.checkOrder order := by
  have unmarked (index : Nat) : (List.replicate calls.sites.length false)[index]? = some false ↔
      index < calls.sites.length := by
    rw [List.getElem?_replicate]
    by_cases below : index < calls.sites.length <;> simp [below]
  have free := mark?_isSome_iff (List.replicate calls.sites.length false) order
  simp only [unmarked] at free
  unfold checkByMarks checkOrder
  dsimp only
  cases marked : mark? (List.replicate calls.sites.length false) order with
  | none =>
      rw [marked] at free
      have barred : ¬ (order.Nodup ∧ ∀ index ∈ order, index < calls.sites.length) := by
        rw [← free]
        exact Bool.false_ne_true
      have refused : ¬ (order.all (fun index => decide (index < calls.sites.length)) &&
          decide order.Nodup && decide (order.length = calls.sites.length)) = true := by
        simp only [Bool.and_eq_true, List.all_eq_true, decide_eq_true_eq]
        intro accepted
        exact barred ⟨accepted.1.2, accepted.1.1⟩
      rw [if_neg refused]
  | some marks =>
      rw [marked] at free
      obtain ⟨once, below⟩ := free.mp rfl
      have visits : order.all (fun index => decide (index < calls.sites.length)) = true := by
        simpa using below
      simp [visits, once]

section

variable (sites : List CallSite) (statement : String) (streams : List EventType)
  (registry : Registry)

def declareLoop : List Nat → Workshop → Option Workshop
  | [], workshop => some workshop
  | index :: rest, workshop =>
      match sites[index]? with
      | some site =>
          declareLoop rest (workshop.declare site.forge (site.declaration statement))
      | none => none

/-- Validates the calls at some positions and puts each handler into the slot of its call. -/
def validateLoop : List Nat → List (Option Handler) → Workshop →
    Option (Except CallSiteError (List (Option Handler)) × Workshop)
  | [], slots, workshop => some (.ok slots, workshop)
  | index :: rest, slots, workshop =>
      match sites[index]? with
      | some site =>
          match workshop.validate site.forge (site.validation statement streams registry) with
          | (.error failure, workshop) => some (.error ⟨index, failure⟩, workshop)
          | (.ok handler, workshop) =>
              validateLoop rest (slots.set index (some handler)) workshop
      | none => none

variable {sites} {order : List Nat}

theorem declareLoop_eq (below : ∀ index ∈ order, index < sites.length) (workshop : Workshop) :
    declareLoop sites statement order workshop =
      some (declareVisits sites statement order workshop) := by
  induction order generalizing workshop with
  | nil => rfl
  | cons index order ih =>
      rw [List.forall_mem_cons] at below
      have found := List.getElem?_eq_getElem below.1
      simp only [declareLoop, declareVisits, found]
      exact ih below.2 _

def fill (slots : List (Option Handler)) (found : List (Nat × Handler)) : List (Option Handler) :=
  found.foldl (fun slots entry => slots.set entry.1 (some entry.2)) slots

theorem validateLoop_eq (below : ∀ index ∈ order, index < sites.length)
    (slots : List (Option Handler)) (workshop : Workshop) :
    validateLoop sites statement streams registry order slots workshop =
      let visits := validateVisits sites statement streams registry order workshop
      some (visits.1.map (fill slots), visits.2) := by
  induction order generalizing slots workshop with
  | nil => rfl
  | cons index order ih =>
      rw [List.forall_mem_cons] at below
      have found := List.getElem?_eq_getElem below.1
      simp only [validateLoop, validateVisits, found]
      cases workshop.validate sites[index].forge
          (sites[index].validation statement streams registry) with
      | mk answer workshop =>
          cases answer with
          | error failure => rfl
          | ok handler =>
              dsimp only
              rw [ih below.2]
              dsimp only
              cases validateVisits sites statement streams registry order workshop with
              | mk result workshop => cases result <;> rfl

end

theorem getElem?_fill (slots : List (Option Handler)) {found : List (Nat × Handler)}
    (once : (found.map Prod.fst).Nodup) (index : Nat) :
    (fill slots found)[index]? =
      slots[index]?.map (fun held => (found.lookup index).or held) := by
  induction found generalizing slots with
  | nil => simp [fill]
  | cons entry found ih =>
      obtain ⟨place, handler⟩ := entry
      rw [List.map_cons, List.nodup_cons] at once
      have step : fill slots ((place, handler) :: found) =
        fill (slots.set place (some handler)) found := rfl
      rw [step, ih (slots.set place (some handler)) once.2, List.lookup_cons]
      by_cases same : index = place
      · subst same
        have single : found.lookup index = none := by
          rw [← Option.not_isSome_iff_eq_none, List.lookup_isSome_iff]
          intro again
          obtain ⟨entry, member, here⟩ := again
          exact once.1 (List.mem_map.mpr ⟨entry, member, (eq_of_beq here).symm⟩)
        rw [single, List.getElem?_set_self', beq_self_eq_true]
        cases slots[index]? <;> rfl
      · have apart : (index == place) = false := by simpa using same
        rw [apart, List.getElem?_set_ne (Ne.symm same)]

theorem reduceOption_fill {found : List (Nat × Handler)} (once : (found.map Prod.fst).Nodup)
    (count : Nat) :
    (fill (List.replicate count none) found).reduceOption =
      (List.range count).filterMap (fun index => found.lookup index) := by
  have whole : fill (List.replicate count none) found =
      (List.range count).map (fun index => found.lookup index) := by
    apply List.ext_getElem?
    intro index
    rw [getElem?_fill _ once, List.getElem?_map, List.getElem?_replicate]
    by_cases below : index < count
    · simp [below]
    · simp [below]
  have held (slots : List (Option Handler)) : slots.reduceOption = slots.filterMap id := rfl
  rw [whole, held, List.filterMap_map]
  rfl

variable (calls : CallSites) (workshop : Workshop) (statement : String) (order : List Nat)
  (streams : List EventType) (registry : Registry)

def declareInPlace : Option (Except ValidationError Unit × CallSites × Workshop) :=
  if calls.phase = .collecting then
    match calls.checkByMarks order with
    | .error failure => some (.error failure, calls, workshop)
    | .ok _ =>
        match declareLoop calls.sites statement order workshop with
        | none => none
        | some workshop => some (.ok (), { calls with phase := .declared }, workshop)
  else
    some (.error (.notAllowed .repeatedDeclaration), calls, workshop)

/-- The second pass. The handlers are what is in the slots when all visits are over. -/
def validateInPlace : Option (Except CallSiteError (List Handler) × CallSites × Workshop) :=
  if calls.phase = .declared then
    match calls.checkByMarks order with
    | .error failure => some (.error ⟨0, failure⟩, calls, workshop)
    | .ok _ =>
        let slots := List.replicate calls.sites.length none
        match validateLoop calls.sites statement streams registry order slots workshop with
        | none => none
        | some (.error failure, workshop) => some (.error failure, calls, workshop)
        | some (.ok slots, workshop) =>
            some (.ok slots.reduceOption, { calls with phase := .validated }, workshop)
  else
    some (.error ⟨0, .notAllowed .validationBeforeDeclaration⟩, calls, workshop)

variable {calls} {order}

theorem below_of_checkOrder (accepted : calls.checkOrder order = .ok ()) :
    ∀ index ∈ order, index < calls.sites.length := by
  intro index member
  exact List.mem_range.mp ((checkOrder_ok_iff.mp accepted).mem_iff.mp member)

theorem declareInPlace_eq :
    calls.declareInPlace workshop statement order =
      some (match calls.declare workshop statement order with
        | .ok (after, workshop) => (.ok (), after, workshop)
        | .error failure => (.error failure, calls, workshop)) := by
  unfold declareInPlace declare
  rw [checkByMarks_eq]
  by_cases collecting : calls.phase = .collecting
  · rw [if_pos collecting, if_pos collecting]
    cases accepted : calls.checkOrder order with
    | error failure => rfl
    | ok _ =>
        dsimp only
        rw [declareLoop_eq statement (below_of_checkOrder accepted)]
  · rw [if_neg collecting, if_neg collecting]

theorem validateInPlace_eq :
    calls.validateInPlace workshop statement order streams registry =
      some (calls.validate workshop statement order streams registry) := by
  unfold validateInPlace validate
  rw [checkByMarks_eq]
  by_cases declared : calls.phase = .declared
  · rw [if_pos declared, if_pos declared]
    cases accepted : calls.checkOrder order with
    | error failure => rfl
    | ok _ =>
        have below := below_of_checkOrder accepted
        dsimp only
        rw [validateLoop_eq statement streams registry below]
        cases visited : validateVisits calls.sites statement streams registry order workshop with
        | mk result after =>
            cases result with
            | error failure => rfl
            | ok found =>
                have once : (found.map Prod.fst).Nodup := by
                  rw [indices_of_validateVisits below visited]
                  exact (checkOrder_ok_iff.mp accepted).nodup_iff.mpr List.nodup_range
                have slots := reduceOption_fill once calls.sites.length
                dsimp only [Except.map]
                rw [slots]
                rfl
  · rw [if_neg declared, if_neg declared]

end EventQuery.CallSites
