set_option autoImplicit false

/-! Dotted text and its segments. Splitting and joining are inverse to each other, so a path
may be kept as text and navigated by its segments. -/

namespace EventQuery.Text

/-- The runs of characters between dots; there is always at least one. -/
def splitAtDots : List Char → List (List Char)
  | [] => [[]]
  | character :: rest =>
      if character = '.' then
        [] :: splitAtDots rest
      else
        match splitAtDots rest with
        | [] => [[character]]
        | segment :: segments => (character :: segment) :: segments

def segments (path : String) : List String :=
  (splitAtDots path.toList).map String.ofList

def joinedByDots : List (List Char) → List Char
  | [] => []
  | [segment] => segment
  | segment :: next :: rest => segment ++ '.' :: joinedByDots (next :: rest)

def dotted (segments : List String) : String :=
  String.ofList (joinedByDots (segments.map String.toList))

theorem splitAtDots_ne_nil (path : List Char) : splitAtDots path ≠ [] := by
  cases path with
  | nil => simp [splitAtDots]
  | cons character rest =>
      simp only [splitAtDots]
      split
      · simp
      · split <;> simp

theorem joinedByDots_cons (segment : List Char) {segments : List (List Char)}
    (present : segments ≠ []) :
    joinedByDots (segment :: segments) = segment ++ '.' :: joinedByDots segments := by
  cases segments with
  | nil => exact absurd rfl present
  | cons next rest => rfl

theorem joinedByDots_splitAtDots (path : List Char) : joinedByDots (splitAtDots path) = path := by
  induction path with
  | nil => rfl
  | cons character rest ih =>
      simp only [splitAtDots]
      split
      · next dot =>
          rw [joinedByDots_cons _ (splitAtDots_ne_nil rest), ih, dot]
          rfl
      · split
        · next empty => exact absurd empty (splitAtDots_ne_nil rest)
        · next segment segments found =>
            rw [found] at ih
            cases segments with
            | nil => simpa [joinedByDots] using ih
            | cons next rest => simpa [joinedByDots] using ih

theorem dotted_segments (path : String) : dotted (segments path) = path := by
  simp only [dotted, segments, List.map_map]
  have texts : (String.toList ∘ String.ofList) = (id : List Char → List Char) := by
    funext characters
    simp
  rw [texts, List.map_id, joinedByDots_splitAtDots, String.ofList_toList]

theorem splitAtDots_append (path rest : List Char) :
    splitAtDots (path ++ '.' :: rest) = splitAtDots path ++ splitAtDots rest := by
  induction path with
  | nil => simp [splitAtDots]
  | cons character path ih =>
      rw [List.cons_append, splitAtDots, splitAtDots, ih]
      by_cases dot : character = '.'
      · rw [if_pos dot, if_pos dot, List.cons_append]
      · rw [if_neg dot, if_neg dot]
        cases found : splitAtDots path with
        | nil => exact absurd found (splitAtDots_ne_nil path)
        | cons segment segments => rfl

theorem segments_append (path rest : String) :
    segments (path ++ "." ++ rest) = segments path ++ segments rest := by
  unfold segments
  rw [String.toList_append, String.toList_append, List.append_assoc]
  have dot : ".".toList ++ rest.toList = '.' :: rest.toList := rfl
  rw [dot, splitAtDots_append, List.map_append]

theorem splitAtDots_of_undotted {path : List Char} (undotted : '.' ∉ path) :
    splitAtDots path = [path] := by
  induction path with
  | nil => rfl
  | cons character rest ih =>
      rw [List.mem_cons, not_or] at undotted
      rw [splitAtDots, if_neg (Ne.symm undotted.1), ih undotted.2]

theorem segments_of_undotted {path : String} (undotted : '.' ∉ path.toList) :
    segments path = [path] := by
  unfold segments
  rw [splitAtDots_of_undotted undotted, List.map_cons, List.map_nil, String.ofList_toList]

theorem segments_ne_nil (path : String) : segments path ≠ [] := by
  intro empty
  exact splitAtDots_ne_nil _ (List.map_eq_nil_iff.mp empty)

theorem splitAtDots_joinedByDots {segments : List (List Char)} (present : segments ≠ [])
    (undotted : ∀ segment ∈ segments, '.' ∉ segment) :
    splitAtDots (joinedByDots segments) = segments := by
  induction segments with
  | nil => exact absurd rfl present
  | cons segment rest ih =>
      obtain ⟨segmentUndotted, restUndotted⟩ := List.forall_mem_cons.mp undotted
      cases rest with
      | nil => exact splitAtDots_of_undotted segmentUndotted
      | cons next rest =>
          rw [joinedByDots_cons _ (List.cons_ne_nil next rest), splitAtDots_append,
            splitAtDots_of_undotted segmentUndotted,
            ih (List.cons_ne_nil next rest) restUndotted]
          rfl

theorem segments_dotted {names : List String} (present : names ≠ [])
    (undotted : ∀ name ∈ names, '.' ∉ name.toList) : segments (dotted names) = names := by
  have someTexts : names.map String.toList ≠ [] := by
    intro empty
    exact present (List.map_eq_nil_iff.mp empty)
  have textsUndotted : ∀ text ∈ names.map String.toList, '.' ∉ text := by
    intro text member
    obtain ⟨name, named, rfl⟩ := List.mem_map.mp member
    exact undotted name named
  unfold segments dotted
  rw [String.toList_ofList, splitAtDots_joinedByDots someTexts textsUndotted, List.map_map]
  have names_same : (String.ofList ∘ String.toList) = (id : String → String) := by
    funext name
    exact String.ofList_toList
  rw [names_same, List.map_id]

end EventQuery.Text
